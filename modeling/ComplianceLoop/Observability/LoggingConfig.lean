import ComplianceLoop.PyLib.DateTime
import ComplianceLoop.PyLib.Matching

/-!
# `observability/logging_config.py`

An event dict goes through the processors of `_build_processors(json_output=True)` in their order. Those of `structlog`
are modelled by what they do to the dict: `merge_contextvars` adds the bound context, `TimeStamper` the time,
`StackInfoRenderer` the stack and `format_exc_info` the traceback of an exception.
-/

set_option autoImplicit false

namespace ComplianceLoop

open PyLib

/-! ## Event dicts -/

/-- An exception, with the traceback text that is written for it. -/
structure LoggedExc where
  message : Text
  traceback : Text
  includes : message <:+: traceback

/-- A value of a log call; a float is given by its text. -/
inductive LogValue where
  | none
  | bool (b : Bool)
  | int (n : Int)
  | float (repr : Text)
  | str (t : Text)
  | list (vs : List LogValue)
  | tuple (vs : List LogValue)
  | dict (ms : List (Text × LogValue))
  /-- An exception or the triple of `sys.exc_info()`. -/
  | exc (e : LoggedExc)

namespace LogValue

/-- `bool(v)`. -/
def truthy : LogValue → Bool
  | none => false
  | bool b => b
  | int n => n != 0
  | float repr => repr != "0.0".toList && repr != "-0.0".toList
  | str t => !t.isEmpty
  | list vs => !vs.isEmpty
  | tuple vs => !vs.isEmpty
  | dict ms => !ms.isEmpty
  | exc _ => true

/-- `isinstance(v, str)`. -/
def isStr : LogValue → Bool
  | str _ => true
  | _ => false

mutual

/-- The strings in a value, the keys of its dicts included. -/
def strings : LogValue → List Text
  | none => []
  | bool _ => []
  | int _ => []
  | float _ => []
  | str t => [t]
  | list vs => stringsOfList vs
  | tuple vs => stringsOfList vs
  | dict ms => stringsOfItems ms
  | exc _ => []

def stringsOfList : List LogValue → List Text
  | [] => []
  | v :: vs => strings v ++ stringsOfList vs

def stringsOfItems : List (Text × LogValue) → List Text
  | [] => []
  | m :: ms => m.1 :: (strings m.2 ++ stringsOfItems ms)

end

end LogValue

structure EventDict where
  items : List (Text × LogValue)
  nodup : (items.map Prod.fst).Nodup

namespace EventDict

/-- `d.get(k)`. -/
def get? (d : EventDict) (k : Text) : Option LogValue := getItem k d.items

/-- `d[k] = v`. -/
def set (d : EventDict) (k : Text) (v : LogValue) : EventDict := ⟨setItem k v d.items, nodup_setItem d.nodup⟩

/-- `d.setdefault(k, v)`. -/
def setdefault (d : EventDict) (k : Text) (v : LogValue) : EventDict := if (d.get? k).isSome then d else d.set k v

theorem nodup_filter_fst (k : Text) (d : EventDict) :
    ((d.items.filter fun m => m.1 ≠ k).map Prod.fst).Nodup :=
  d.nodup.sublist (List.filter_sublist.map Prod.fst)

/-- `d.pop(k, None)`, less its result. -/
def pop (d : EventDict) (k : Text) : EventDict := ⟨d.items.filter fun m => m.1 ≠ k, nodup_filter_fst k d⟩

theorem nodup_map_fst (f : LogValue → LogValue) (d : EventDict) :
    ((d.items.map fun m => (m.1, f m.2)).map Prod.fst).Nodup := by
  rw [List.map_map]
  exact d.nodup

/-- `{k: f(v) for k, v in d.items()}`. -/
def mapValues (d : EventDict) (f : LogValue → LogValue) : EventDict :=
  ⟨d.items.map fun m => (m.1, f m.2), nodup_map_fst f d⟩

theorem get?_set (d : EventDict) (j k : Text) (v : LogValue) :
    (d.set k v).get? j = if j = k then some v else d.get? j := by
  split
  · rename_i h
    rw [h]
    exact getItem_setItem k v d.items
  · rename_i h
    exact getItem_setItem_of_ne h v d.items

theorem get?_setdefault (d : EventDict) (j k : Text) (v : LogValue) :
    (d.setdefault k v).get? j = if j = k then some ((d.get? k).getD v) else d.get? j := by
  unfold setdefault
  cases h : d.get? k with
  | none => rw [Option.isSome_none, if_neg Bool.false_ne_true, get?_set, Option.getD_none]
  | some w =>
    rw [Option.isSome_some, if_pos rfl, Option.getD_some]
    split
    · rename_i hj
      rw [hj, h]
    · rfl

/-- What has a value keeps it, and of two new values the first counts. -/
theorem get?_foldl_setdefault (ms : List (Text × LogValue)) (d : EventDict) (k : Text) :
    (ms.foldl (fun d m => d.setdefault m.1 m.2) d).get? k = (d.get? k).or (getItem k ms) := by
  induction ms generalizing d with
  | nil => exact (Option.or_none).symm
  | cons m ms ih =>
    rw [List.foldl_cons, ih, get?_setdefault, getItem]
    by_cases hk : k = m.1
    · rw [if_pos hk, if_pos hk.symm, hk]
      cases d.get? m.1 <;> rfl
    · rw [if_neg hk, if_neg fun h => hk h.symm]

theorem get?_pop (d : EventDict) (j k : Text) : (d.pop k).get? j = if j = k then none else d.get? j :=
  getItem_filter_ne j k d.items

theorem get?_mapValues (d : EventDict) (f : LogValue → LogValue) (k : Text) :
    (d.mapValues f).get? k = (d.get? k).map f := getItem_mapValues f k d.items

end EventDict

/-! ## The patterns -/

/-- `\w`. -/
structure WordClass where
  isWord : Char → Bool
  alphanum : ∀ c : Char, c.isAlphanum = true → isWord c = true
  decimal : ∀ c : Char, isDecimal c = true → isWord c = true

section

variable (W : WordClass)

/-- `PAN_PATTERN`. -/
def panPattern : Regex :=
  .delimited W.isWord (.cat (.times isUpperLetter 5) (.cat (.times Char.isDigit 4) (.char isUpperLetter)))

/-- `[\s-]`. -/
def isGap (c : Char) : Bool := isSpace c || c = '-'

/-- `AADHAAR_PATTERN`. -/
def aadhaarPattern : Regex :=
  .delimited W.isWord (.cat (.times isDecimal 4) (.cat (.opt (.char isGap)) (.cat (.times isDecimal 4)
    (.cat (.opt (.char isGap)) (.times isDecimal 4)))))

/-- `[0-9a-f]` of a pattern with `re.IGNORECASE`. -/
def isHexDigit (c : Char) : Bool :=
  ('0' ≤ c && c ≤ '9') || ('a' ≤ c && c ≤ 'f') || ('A' ≤ c && c ≤ 'F')

/-- `KEY_PATTERN`. -/
def keyPattern : Regex := .delimited W.isWord (.times isHexDigit 64)

/-- What `_censor_value` does to a string. -/
def censorText (t : Text) : Text :=
  (keyPattern W).sub "[KEY_REDACTED]".toList
    ((aadhaarPattern W).sub "[AADHAAR_REDACTED]".toList ((panPattern W).sub "[PAN_REDACTED]".toList t))

/-- `_censor_value`. -/
def censorValue : LogValue → LogValue
  | .str t => .str (censorText W t)
  | v => v

/-! ## The processors -/

/-- What a log call finds around it: the bound context, the name of the method, the environment, the time, the text of
the stack, and the exception that is being handled. -/
structure LogEnv where
  context : EventDict
  method : Text
  environ : TextDict
  now : DateTime
  now_utc : now.tz = some utcOffset
  stack : Text
  current : Option LoggedExc

variable (env : LogEnv)

/-- `merge_contextvars`. -/
def mergeContextvars (e : EventDict) : EventDict := env.context.items.foldl (fun e m => e.setdefault m.1 m.2) e

/-- `_add_log_level`. -/
def addLogLevel (e : EventDict) : EventDict := e.set "level".toList (.str (upper env.method))

/-- `_add_service_context`. -/
def addServiceContext (e : EventDict) : EventDict :=
  ((e.setdefault "service".toList (.str "complianceloop".toList)).setdefault "env".toList
    (.str (env.environ.get "APP_ENV".toList "development".toList))).setdefault "version".toList
      (.str (env.environ.get "APP_VERSION".toList "1.0.0".toList))

/-- `_censor_sensitive_fields`. -/
def censorSensitiveFields (e : EventDict) : EventDict := e.mapValues (censorValue W)

/-- `_drop_color_message`. -/
def dropColorMessage (e : EventDict) : EventDict := e.pop "color_message".toList

/-- The time as `TimeStamper(fmt="iso", utc=True)` writes it. -/
def timestamp : Text := DateTime.dateText env.now.date ++ 'T' :: (DateTime.timeText env.now.time ++ ['Z'])

/-- `TimeStamper`. -/
def timeStamper (e : EventDict) : EventDict := e.set "timestamp".toList (.str (timestamp env))

/-- `StackInfoRenderer`. -/
def stackInfoRenderer (e : EventDict) : EventDict :=
  let popped := e.pop "stack_info".toList
  if ((e.get? "stack_info".toList).getD .none).truthy then popped.set "stack".toList (.str env.stack) else popped

/-- `_figure_out_exc_info`: the exception that the value of `exc_info` stands for. -/
def figureOutExcInfo : LogValue → Option LoggedExc
  | .exc x => some x
  | v => if v.truthy then env.current else none

/-- `format_exc_info`. -/
def formatExcInfo (e : EventDict) : EventDict :=
  let popped := e.pop "exc_info".toList
  match figureOutExcInfo env ((e.get? "exc_info".toList).getD .none) with
  | some x => popped.set "exception".toList (.str x.traceback)
  | none => popped

/-- `_build_processors(json_output=True)`, up to the renderer. -/
def buildProcessors : List (EventDict → EventDict) :=
  [mergeContextvars env, addLogLevel env, addServiceContext env, censorSensitiveFields W, dropColorMessage,
    timeStamper env, stackInfoRenderer env, formatExcInfo env]

/-- The event dict that reaches the renderer. -/
def runProcessors (e : EventDict) : EventDict := (buildProcessors W env).foldl (fun e f => f e) e

end

end ComplianceLoop
