import ComplianceLoop.PyLib.KeyOrder

/-!
# Built-in operations on values

`s.encode("utf-8")` and `uuid.UUID(s)` on a Python string, and `bool`, `float`, `str`, `in`, `dict.get`, `vars` and
`dataclasses.asdict` on a `PyVal`, each with the exception it raises for what it refuses. `WholeFloat` is an instance
of the float operations in which every finite double is a whole number, small enough to compute with.
-/

set_option autoImplicit false

namespace PyLib

/-! ## Strings -/

/-- The character of a code point that is no surrogate. -/
def charOf (c : CodePoint) : Option Char := if h : c.val.isValidChar then some (Char.ofNatAux c.val h) else none

/-- The text of a string without surrogates. -/
def toText : PyStr → Option Text
  | [] => some []
  | c :: s => (charOf c).bind fun d => (toText s).map (d :: ·)

theorem charOf_codePoint (c : Char) : charOf (codePoint c) = some c := by
  have hv : (codePoint c).val.isValidChar := c.valid
  exact (dif_pos hv).trans (congrArg some (Char.toNat_inj.mp rfl))

theorem codePoint_of_charOf {c : CodePoint} {d : Char} (h : charOf c = some d) : codePoint d = c := by
  by_cases hv : c.val.isValidChar
  · have hc : charOf c = some (Char.ofNatAux c.val hv) := dif_pos hv
    cases hc.symm.trans h
    rfl
  · have hc : charOf c = none := dif_neg hv
    cases hc.symm.trans h

@[simp] theorem toText_pyStr (t : Text) : toText (pyStr t) = some t := by
  induction t with
  | nil => rfl
  | cons c t ih =>
    rw [pyStr] at ih ⊢
    rw [List.map_cons, toText, charOf_codePoint, ih]
    rfl

theorem toText_eq_some : ∀ {s : PyStr} {t : Text}, toText s = some t ↔ s = pyStr t := by
  refine fun {s t} => ⟨fun h => ?_, fun h => h ▸ toText_pyStr t⟩
  induction s generalizing t with
  | nil => cases h; rfl
  | cons c s ih =>
    obtain ⟨d, hd, h⟩ := Option.bind_eq_some_iff.mp h
    obtain ⟨t, ht, rfl⟩ := Option.map_eq_some_iff.mp h
    rw [ih ht, ← codePoint_of_charOf hd]
    rfl

/-- `s.encode("utf-8")`. -/
def encodeUtf8 (s : PyStr) : Except PyExc Bytes :=
  match toText s with
  | some t => .ok (utf8 t)
  | none => raise .unicodeEncodeError "'utf-8' codec can't encode character: surrogates not allowed".toList

@[simp] theorem encodeUtf8_pyStr (t : Text) : encodeUtf8 (pyStr t) = .ok (utf8 t) := by simp [encodeUtf8]

/-- `uuid.UUID(s)`. -/
def uuidOf (s : PyStr) : Except PyExc Uuid :=
  match (toText s).bind Uuid.parse with
  | some u => .ok u
  | none => raise .valueError "badly formed hexadecimal UUID string".toList

theorem uuidOf_eq_ok {s : PyStr} {u : Uuid} : uuidOf s = .ok u ↔ ∃ t, s = pyStr t ∧ Uuid.parse t = some u := by
  unfold uuidOf
  constructor
  · intro h
    split at h
    · rename_i v hv
      cases h
      obtain ⟨t, ht, hp⟩ := Option.bind_eq_some_iff.mp hv
      exact ⟨t, toText_eq_some.mp ht, hp⟩
    · cases h
  · rintro ⟨t, rfl, ht⟩
    simp [ht]

@[simp] theorem uuidOf_str (u : Uuid) : uuidOf (pyStr u.str) = .ok u := uuidOf_eq_ok.mpr ⟨_, rfl, Uuid.parse_str u⟩

/-! ## Values -/

variable {D : Type} [FloatOps D]

/-- `float.__repr__`; unlike `json` it spells the three other values in lower case. -/
def floatRepr : PyFloat D → Text
  | .finite d => (FloatText.token d).text
  | .inf => "inf".toList
  | .negInf => "-inf".toList
  | .nan => "nan".toList

/-- The value of a string key. -/
def lookupStr {β : Type} (k : PyStr) : List (PyKey D × β) → Option β
  | [] => none
  | (.str s, v) :: items => if s = k then some v else lookupStr k items
  | _ :: items => lookupStr k items

omit [FloatOps D] in
theorem lookupStr_map {β : Type} (k : PyStr) (ms : List (PyStr × β)) :
    lookupStr k (ms.map fun p => ((PyKey.str p.1 : PyKey D), p.2)) = getItem k ms := by
  induction ms with
  | nil => rfl
  | cons m ms ih => rw [List.map_cons, lookupStr, getItem, ih]

namespace PyVal

/-- `bool(v)`. -/
def truthy : PyVal D → Bool
  | .none => false
  | .bool b => b
  | .int i => i ≠ 0
  | .float (.finite d) => FloatOps.toRat d ≠ 0
  | .str s => !s.isEmpty
  | .list xs => !xs.isEmpty
  | .tuple xs => !xs.isEmpty
  | .dict items => !items.isEmpty
  | .foreign o => o.truthy
  | _ => true

/-- `float(v)`. -/
def toFloat : PyVal D → Except PyExc (PyFloat D)
  | .float f => .ok f
  | .int i => ofWhole i
  | .bool b => ofWhole (if b then 1 else 0)
  | .str s => match FloatOps.ofStr s with
    | some f => .ok f
    | Option.none => raise .valueError "could not convert string to float".toList
  | .foreign ⟨_, _, _, some f⟩ => .ok f
  | _ => raise .typeError "float() argument must be a string or a real number".toList
where
  ofWhole (i : Int) : Except PyExc (PyFloat D) :=
    match FloatOps.ofInt i with
    | some d => .ok (.finite d)
    | Option.none => raise .overflowError "int too large to convert to float".toList

/-- `str(v)`; `repr` gives the text of the containers and of the objects. -/
def toStr (repr : PyVal D → PyStr) : PyVal D → Except PyExc PyStr
  | .none => .ok (pyStr "None".toList)
  | .bool true => .ok (pyStr "True".toList)
  | .bool false => .ok (pyStr "False".toList)
  | .int i =>
    if Json.intFits i then .ok (pyStr (NumToken.ofInt i).text)
    else raise .valueError "Exceeds the limit (4300 digits) for integer string conversion".toList
  | .float f => .ok (pyStr (floatRepr f))
  | .str s => .ok s
  | .datetime w =>
    .ok (pyStr (DateTime.dateText w.date ++ ' ' :: (DateTime.timeText w.time ++ DateTime.offsetText w.tz)))
  | .uuid u => .ok (pyStr u.str)
  | .foreign o => .ok o.text
  | v => .ok (repr v)

/-- `k in v`. -/
def isIn (k : PyStr) : PyVal D → Except PyExc Bool
  | .dict items => .ok (lookupStr k items).isSome
  | .list xs => .ok (xs.any (isStr k))
  | .tuple xs => .ok (xs.any (isStr k))
  | .str s => .ok (decide (k <:+: s))
  | _ => raise .typeError "argument is not iterable".toList
where
  isStr (k : PyStr) : PyVal D → Bool
    | .str s => s = k
    | _ => false

/-- `v.get(k, default)`. -/
def get (v : PyVal D) (k : PyStr) (default : PyVal D) : Except PyExc (PyVal D) :=
  match v with
  | .dict items => .ok ((lookupStr k items).getD default)
  | _ => raise .attributeError "object has no attribute 'get'".toList

mutual

/-- `dataclasses.asdict` on a value inside a dataclass instance: instances become dicts, containers are rebuilt, and
anything else is copied. -/
def asDict : PyVal D → PyVal D
  | .dataclass _ fields => .dict (asDictFields fields)
  | .list xs => .list (asDictElems xs)
  | .tuple xs => .tuple (asDictElems xs)
  | .dict items => .dict (asDictItems items)
  | v => v

def asDictFields : List (Text × PyVal D) → List (PyKey D × PyVal D)
  | [] => []
  | (n, v) :: fields => (.str (pyStr n), asDict v) :: asDictFields fields

def asDictElems : List (PyVal D) → List (PyVal D)
  | [] => []
  | x :: xs => asDict x :: asDictElems xs

def asDictItems : List (PyKey D × PyVal D) → List (PyKey D × PyVal D)
  | [] => []
  | (k, v) :: items => (k, asDict v) :: asDictItems items

end

/-- The attributes of an object as a dict. -/
def varsDict (attrs : List (Text × PyVal D)) : PyVal D := .dict (attrs.map fun p => (.str (pyStr p.1), p.2))

end PyVal

/-! ## Whole floats -/

/-- A double that holds a whole number. -/
structure WholeFloat where
  val : Int
  deriving DecidableEq

instance : FloatText WholeFloat where
  token d := { NumToken.ofInt d.val with frac := some ['0'] }
  ofToken n := if n.frac = some ['0'] ∧ n.exp = none then .finite ⟨n.toInt⟩ else .nan
  token_wf d :=
    { int_digits := (NumToken.wf_ofInt d.val).int_digits
      int_lead := (NumToken.wf_ofInt d.val).int_lead
      frac_digits := fun ds h => by
        obtain rfl : ['0'] = ds := by simpa using h
        exact ⟨by simp, by simp⟩
      exp_digits := (NumToken.wf_ofInt d.val).exp_digits }
  token_isFloat d := rfl
  ofToken_token d := by
    rw [if_pos ⟨rfl, rfl⟩]
    exact congrArg (fun i => PyFloat.finite (WholeFloat.mk i)) (NumToken.toInt_ofInt d.val)

instance : FloatOps WholeFloat where
  toRat d := d.val
  ofInt i := some ⟨i⟩
  ofStr _ := none
  nanSort l := l
  nanSort_perm := List.Perm.refl
  nanSort_map _ _ := rfl

end PyLib
