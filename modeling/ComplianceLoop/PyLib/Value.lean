import Mathlib.Data.Rat.Defs
import ComplianceLoop.PyLib.JsonOrder
import ComplianceLoop.PyLib.DateTime
import ComplianceLoop.PyLib.Uuid

/-!
# Python values and `json`

`PyVal` is the value space that a JSON call can meet: the JSON types, tuples, dicts with keys of any type, the three
types that a `default` function converts (`datetime`, `UUID`, `Enum`) and the objects that it refuses. `encode` is the
document that `json.dumps(v, sort_keys=True, default=...)` writes, and `loads` is `json.loads`.

The items of a dict are sorted by their Python keys before the keys become strings. So the document that is written is
sorted as text only when the two orders agree (`KeysAgree`); `encode_ofJson` says that what is written for the value
that is read back is the canonical form of the document, and `sorted_joined_iff` that it is the same document exactly
when the orders agree.
-/

set_option autoImplicit false

namespace PyLib

/-! ## Floats as numbers -/

/-- The key of a dict. -/
inductive PyKey (D : Type) where
  | str (s : PyStr)
  | int (i : Int)
  | float (f : PyFloat D)
  | bool (b : Bool)
  | none
  | other
  deriving DecidableEq

/-- What the interpreter does with floats: `toRat` is the exact value of a finite double, `ofInt` is `float` of an
integer (`none` where it overflows), `ofStr` is `float` of a string (`none` where it is no numeral), and `nanSort` is
the order in which `list.sort` leaves numeric keys among which a NaN makes the comparisons inconsistent. -/
class FloatOps (D : Type) extends FloatText D where
  toRat : D → ℚ
  ofInt : Int → Option D
  ofStr : PyStr → Option (PyFloat D)
  nanSort : {β : Type} → List (PyKey D × β) → List (PyKey D × β)
  nanSort_perm : ∀ {β : Type} (l : List (PyKey D × β)), (nanSort l).Perm l
  nanSort_map : ∀ {β γ : Type} (f : β → γ) (l : List (PyKey D × β)),
    (nanSort l).map (fun p => (p.1, f p.2)) = nanSort (l.map fun p => (p.1, f p.2))

variable {D : Type} [FloatOps D]

/-- A number on the extended line. -/
inductive NumVal where
  | negInf
  | fin (q : ℚ)
  | posInf

def NumVal.le : NumVal → NumVal → Bool
  | .negInf, _ => true
  | _, .posInf => true
  | .fin p, .fin q => p ≤ q
  | _, _ => false

namespace PyKey

/-- The number a key stands for; a NaN stands for none. -/
def num : PyKey D → Option NumVal
  | .int i => some (.fin i)
  | .bool b => some (.fin (if b then 1 else 0))
  | .float (.finite d) => some (.fin (FloatOps.toRat d))
  | .float .inf => some .posInf
  | .float .negInf => some .negInf
  | _ => Option.none

def isStr : PyKey D → Bool
  | .str _ => true
  | _ => false

def isNumeric : PyKey D → Bool
  | .int _ | .bool _ | .float _ => true
  | _ => false

/-- `a <= b` on two strings or on two numbers. -/
def le (a b : PyKey D) : Bool :=
  match a, b with
  | .str s, .str t => s ≤ t
  | a, b => match a.num, b.num with
    | some x, some y => x.le y
    | _, _ => false

/-- The member name that `json` writes for a key. -/
def text : PyKey D → Except PyExc PyStr
  | .str s => .ok s
  | .int i =>
    if Json.intFits i then .ok (pyStr (NumToken.ofInt i).text)
    else raise .valueError "Exceeds the limit (4300 digits) for integer string conversion".toList
  | .float f => .ok (pyStr (floatText f))
  | .bool true => .ok (pyStr "true".toList)
  | .bool false => .ok (pyStr "false".toList)
  | .none => .ok (pyStr "null".toList)
  | .other => raise .typeError "keys must be str, int, float, bool or None".toList

/-- The string that `json.loads` reads back for a key. -/
def jsonName (k : PyKey D) : PyStr :=
  match k.text with
  | .ok s => joinPairs s
  | .error _ => []

end PyKey

/-- `sorted(d.items())` as `json.dumps(sort_keys=True)` does it. Keys of one dict are never equal, so the values are
not compared. -/
def sortItems {β : Type} (items : List (PyKey D × β)) : Except PyExc (List (PyKey D × β)) :=
  if items.length ≤ 1 then .ok items
  else if items.all (·.1.isStr) then .ok (items.insertionSort fun a b => a.1.le b.1)
  else if items.all (·.1.isNumeric) then
    .ok (if items.all (·.1.num.isSome) then items.insertionSort fun a b => a.1.le b.1 else FloatOps.nanSort items)
  else raise .typeError "'<' not supported between instances".toList

theorem sortItems_perm {β : Type} {items s : List (PyKey D × β)} (h : sortItems items = .ok s) : s.Perm items := by
  unfold sortItems at h
  split_ifs at h <;> cases h
  · exact .refl _
  · exact List.perm_insertionSort _ _
  · exact List.perm_insertionSort _ _
  · exact FloatOps.nanSort_perm _

/-- The order depends on the keys only. -/
theorem sortItems_map {β γ : Type} (f : β → γ) (items : List (PyKey D × β)) :
    sortItems (items.map fun p => (p.1, f p.2)) = (sortItems items).map (·.map fun p => (p.1, f p.2)) := by
  have hs := List.map_insertionSort (fun a b : PyKey D × β => a.1.le b.1) (fun a b : PyKey D × γ => a.1.le b.1)
    (fun p => (p.1, f p.2)) items fun _ _ _ _ => Iff.rfl
  simp only [sortItems, List.length_map, List.all_map, Function.comp_def]
  split_ifs
  · rfl
  · exact congrArg Except.ok hs.symm
  · exact congrArg Except.ok hs.symm
  · exact congrArg Except.ok (FloatOps.nanSort_map f items).symm
  · rfl

/-- String keys are sorted as strings. -/
theorem sortItems_str {β : Type} (ms : List (PyStr × β)) :
    sortItems (ms.map fun p => ((PyKey.str p.1 : PyKey D), p.2)) =
      .ok ((sortMembers ms).map fun p => (PyKey.str p.1, p.2)) := by
  have hs := List.map_insertionSort (fun a b : PyStr × β => a.1 ≤ b.1)
    (fun a b : PyKey D × β => a.1.le b.1) (fun p => (PyKey.str p.1, p.2)) ms fun a _ b _ => by simp [PyKey.le]
  have hall : (ms.map fun p => ((PyKey.str p.1 : PyKey D), p.2)).all (·.1.isStr) = true := by simp [PyKey.isStr]
  rw [sortMembers, hs, sortItems, if_pos hall]
  split
  · obtain _ | ⟨m, _ | ⟨m', ms⟩⟩ := ms
    · rfl
    · rfl
    · rename_i h
      simp at h
  · rfl

/-! ## Values -/

/-- An object without attributes that `json` refuses: its class and what `str`, `bool` and `float` give for it. -/
structure Foreign (D : Type) where
  cls : Text
  text : PyStr
  truthy : Bool
  float : Option (PyFloat D)

/-- A Python value. A dict is its items in their order; a dataclass instance and any other object with a `__dict__` are
the names and values of their attributes; `enum` is a member of a plain `Enum` with its value. -/
inductive PyVal (D : Type) where
  | none
  | bool (b : Bool)
  | int (i : Int)
  | float (f : PyFloat D)
  | str (s : PyStr)
  | list (xs : List (PyVal D))
  | tuple (xs : List (PyVal D))
  | dict (items : List (PyKey D × PyVal D))
  | datetime (w : DateTime)
  | uuid (u : Uuid)
  | enum (v : PyVal D)
  | dataclass (cls : Text) (fields : List (Text × PyVal D))
  | object (cls : Text) (attrs : List (Text × PyVal D))
  | foreign (o : Foreign D)

/-- The members of an object from the sorted items of a dict: at each item the name first, then the value. -/
def writeMembers : List (PyKey D × Except PyExc (Json D)) → Except PyExc (List (PyStr × Json D))
  | [] => .ok []
  | (k, v) :: items => k.text.bind fun n => v.bind fun d => (writeMembers items).map ((n, d) :: ·)

/-- What the two `_json_default` functions raise for an object of class `cls`. -/
def notSerialisable (cls : Text) : Except PyExc (Json D) :=
  raise .typeError ("Object of type ".toList ++ cls ++ " is not JSON serialisable".toList)

namespace PyVal

mutual

/-- The document that `json.dumps(v, sort_keys=True, default=_json_default)` writes. -/
def encode : PyVal D → Except PyExc (Json D)
  | .none => .ok .null
  | .bool b => .ok (.bool b)
  | .int i =>
    if Json.intFits i then .ok (.int i)
    else raise .valueError "Exceeds the limit (4300 digits) for integer string conversion".toList
  | .float f => .ok (.float f)
  | .str s => .ok (.str s)
  | .list xs => (encodeElems xs).map .arr
  | .tuple xs => (encodeElems xs).map .arr
  | .dict items => (sortItems (encodeItems items)).bind fun s => (writeMembers s).map .obj
  | .datetime w => .ok (.str (pyStr w.isoformat))
  | .uuid u => .ok (.str (pyStr u.str))
  | .enum v => encode v
  | .dataclass cls _ => notSerialisable cls
  | .object cls _ => notSerialisable cls
  | .foreign o => notSerialisable o.cls

def encodeElems : List (PyVal D) → Except PyExc (List (Json D))
  | [] => .ok []
  | x :: xs => (encode x).bind fun d => (encodeElems xs).map (d :: ·)

/-- The items with the document of each value, or what its encoding raises. -/
def encodeItems : List (PyKey D × PyVal D) → List (PyKey D × Except PyExc (Json D))
  | [] => []
  | (k, v) :: items => (k, encode v) :: encodeItems items

end

mutual

/-- The value that `json.loads` makes of a document. -/
def ofJson : Json D → PyVal D
  | .null => .none
  | .bool b => .bool b
  | .int i => .int i
  | .float f => .float f
  | .str s => .str s
  | .arr xs => .list (ofElems xs)
  | .obj ms => .dict ((buildDict (ofMembers ms)).map fun p => (.str p.1, p.2))

def ofElems : List (Json D) → List (PyVal D)
  | [] => []
  | x :: xs => ofJson x :: ofElems xs

def ofMembers : List (PyStr × Json D) → List (PyStr × PyVal D)
  | [] => []
  | (k, v) :: ms => (k, ofJson v) :: ofMembers ms

end

/-- `json.dumps(v, sort_keys=True, separators=(",", ":"), default=_json_default)`. -/
def dumps (v : PyVal D) : Except PyExc Text := (encode v).map Json.print

/-- `json.loads(t)`. -/
def loads (t : Text) : Except PyExc (PyVal D) :=
  match Json.parse t with
  | some d => .ok (ofJson d)
  | Option.none => raise .jsonDecodeError "Expecting value".toList

theorem encodeItems_eq_map (items : List (PyKey D × PyVal D)) :
    encodeItems items = items.map fun p => (p.1, encode p.2) := by
  induction items with
  | nil => rfl
  | cons p items ih => rw [encodeItems, ih, List.map_cons]

omit [FloatOps D] in
theorem ofMembers_eq_map (ms : List (PyStr × Json D)) : ofMembers ms = ms.map fun p => (p.1, ofJson p.2) := by
  induction ms with
  | nil => rfl
  | cons p ms ih => rw [ofMembers, ih, List.map_cons]

theorem writeMembers_ok (ms : List (PyStr × Json D)) :
    writeMembers (ms.map fun p => ((PyKey.str p.1 : PyKey D), .ok p.2)) = .ok ms := by
  induction ms with
  | nil => rfl
  | cons m ms ih =>
    rw [List.map_cons, writeMembers, ih]
    rfl

omit [FloatOps D] in
/-- Keys that are made from strings are different when the strings are. -/
theorem nodup_str_iff {β : Type} {l : List (PyStr × β)} :
    (l.map fun p => (PyKey.str p.1 : PyKey D)).Nodup ↔ (l.map Prod.fst).Nodup := by
  rw [← List.nodup_map_iff (f := (PyKey.str : PyStr → PyKey D)) fun _ _ h => PyKey.str.inj h, List.map_map]
  rfl

/-- The items of a dict with string keys are written in the order of the keys. -/
theorem encode_dict_named {items : List (PyKey D × PyVal D)} {es : List (PyStr × Except PyExc (Json D))}
    (h : encodeItems items = es.map fun p => (PyKey.str p.1, p.2)) :
    encode (.dict items) = (writeMembers ((sortMembers es).map fun p => (PyKey.str p.1, p.2))).map .obj := by
  rw [encode, h, sortItems_str]
  rfl

/-- The members of a dict with string keys whose values can be written. -/
theorem encode_dict_str {items : List (PyKey D × PyVal D)} {ms : List (PyStr × Json D)}
    (h : encodeItems items = ms.map fun p => (PyKey.str p.1, .ok p.2)) :
    encode (.dict items) = .ok (.obj (sortMembers ms)) := by
  have he : encodeItems items = (ms.map fun p => (p.1, Except.ok p.2)).map fun p => (PyKey.str p.1, p.2) := by
    rw [h, List.map_map]
    rfl
  have hc : ((fun p => (PyKey.str p.1, p.2)) ∘
      fun p : PyStr × Json D => (p.1, (Except.ok p.2 : Except PyExc (Json D)))) =
        fun p => ((PyKey.str p.1 : PyKey D), .ok p.2) := rfl
  rw [encode_dict_named he, ← map_sortMembers, List.map_map, hc, writeMembers_ok]
  rfl

/-! ## Writing what was read -/

mutual

/-- **For a value that was read from a document, the canonical form of the document is written.** -/
theorem encode_ofJson : ∀ {d : Json D}, d.Fits → encode (ofJson d) = .ok d.canon
  | .null, _ | .bool _, _ | .float _, _ | .str _, _ => rfl
  | .int i, h => by rw [ofJson, encode, if_pos (show Json.intFits i = true from h)]; rfl
  | .arr xs, h => by rw [ofJson, encode, encodeElems_ofElems h]; rfl
  | .obj ms, h => by
    have hm : (ofMembers ms).map (fun p => (p.1, encode p.2)) =
        (Json.canonMembers ms).map fun p => (p.1, Except.ok p.2) := encode_ofMembers h
    have hd : encodeItems ((buildDict (ofMembers ms)).map fun p => ((PyKey.str p.1 : PyKey D), p.2)) =
        (buildDict (Json.canonMembers ms)).map fun p => (PyKey.str p.1, .ok p.2) := by
      calc encodeItems ((buildDict (ofMembers ms)).map fun p => ((PyKey.str p.1 : PyKey D), p.2))
        _ = ((buildDict (ofMembers ms)).map fun p => (p.1, encode p.2)).map fun p => (PyKey.str p.1, p.2) := by
            rw [encodeItems_eq_map, List.map_map, List.map_map]
            rfl
        _ = ((buildDict (Json.canonMembers ms)).map fun p => (p.1, Except.ok p.2)).map
              fun p => (PyKey.str p.1, p.2) := by
            rw [map_buildDict, hm, ← map_buildDict]
        _ = _ := by rw [List.map_map]; rfl
    rw [ofJson, encode_dict_str hd]
    rfl

theorem encodeElems_ofElems : ∀ {xs : List (Json D)}, Json.FitsElems xs →
    encodeElems (ofElems xs) = .ok (Json.canonElems xs)
  | [], _ => rfl
  | x :: xs, h => by
    rw [ofElems, encodeElems, encode_ofJson h.1, encodeElems_ofElems h.2]
    rfl

theorem encode_ofMembers : ∀ {ms : List (PyStr × Json D)}, Json.FitsMembers ms →
    (ofMembers ms).map (fun p => (p.1, encode p.2)) = (Json.canonMembers ms).map fun p => (p.1, .ok p.2)
  | [], _ => rfl
  | (k, v) :: ms, h => by
    rw [ofMembers, List.map_cons, encode_ofJson h.1, encode_ofMembers h.2]
    rfl

end

end PyVal

end PyLib
