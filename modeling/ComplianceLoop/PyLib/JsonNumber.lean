import ComplianceLoop.PyLib.JsonString

/-!
# JSON number tokens

`scanNumber` is `_match_number` of `json.scanner`: it takes the longest prefix matching
`-?(0|[1-9][0-9]*)(\.[0-9]+)?([eE][-+]?[0-9]+)?` apart into a `NumToken`. A well-formed token that is followed by
nothing a number could go on with is read back as written (`scanNumber_text`). The token of an integer is
`NumToken.ofInt`, and its value is that integer (`toInt_ofInt`).
-/

set_option autoImplicit false

namespace PyLib

/-- The parts of a number as written. -/
structure NumToken where
  neg : Bool
  int : Text
  /-- The digits after the point. -/
  frac : Option Text
  /-- The exponent letter, its sign if written, and its digits. -/
  exp : Option (Char × Option Char × Text)
  deriving DecidableEq

namespace NumToken

def fracText : Option Text → Text
  | none => []
  | some ds => '.' :: ds

def expText : Option (Char × Option Char × Text) → Text
  | none => []
  | some (e, sign, ds) => e :: (sign.toList ++ ds)

/-- The token as written. -/
def text (n : NumToken) : Text :=
  (if n.neg then ['-'] else []) ++ (n.int ++ (fracText n.frac ++ expText n.exp))

/-- With a fraction or an exponent, the number is a float. -/
def isFloat (n : NumToken) : Bool := n.frac.isSome || n.exp.isSome

/-- The value of a token that is not a float. -/
def toInt (n : NumToken) : Int :=
  if n.neg then -(Nat.ofDigitChars 10 n.int 0 : Int) else (Nat.ofDigitChars 10 n.int 0 : Int)

/-- Digits, at least one. -/
def Digits (ds : Text) : Prop := ds ≠ [] ∧ ∀ c ∈ ds, c.isDigit = true

/-- The grammar of the parts. -/
structure WF (n : NumToken) : Prop where
  int_digits : Digits n.int
  int_lead : n.int = ['0'] ∨ n.int.head? ≠ some '0'
  frac_digits : ∀ ds ∈ n.frac, Digits ds
  exp_digits : ∀ e sign ds, n.exp = some (e, sign, ds) →
    (e = 'e' ∨ e = 'E') ∧ (∀ s ∈ sign, s = '+' ∨ s = '-') ∧ Digits ds

end NumToken

/-! ## Scanning -/

/-- The longest run of digits, if there is any. -/
def scanDigits (t : Text) : Option (Text × Text) :=
  if t.takeWhile Char.isDigit = [] then none else some (t.takeWhile Char.isDigit, t.dropWhile Char.isDigit)

/-- The integer part: a lone zero or digits without a leading zero. -/
def scanInt : Text → Option (Text × Text)
  | '0' :: t => some (['0'], t)
  | t => scanDigits t

/-- The fraction, if one is there. -/
def scanFrac : Text → Option Text × Text
  | '.' :: t => match scanDigits t with
    | some (ds, r) => (some ds, r)
    | none => (none, '.' :: t)
  | t => (none, t)

/-- The sign of an exponent, if one is there. -/
def scanSign : Text → Option Char × Text
  | [] => (none, [])
  | c :: t => if c = '+' ∨ c = '-' then (some c, t) else (none, c :: t)

/-- The exponent, if one is there. -/
def scanExp : Text → Option (Char × Option Char × Text) × Text
  | [] => (none, [])
  | c :: t =>
    if c = 'e' ∨ c = 'E' then
      match scanDigits (scanSign t).2 with
      | some (ds, r) => (some (c, (scanSign t).1, ds), r)
      | none => (none, c :: t)
    else (none, c :: t)

/-- The minus sign, if one is there. -/
def scanMinus : Text → Bool × Text
  | '-' :: t => (true, t)
  | t => (false, t)

/-- A number token and the text after it. -/
def scanNumber (t : Text) : Option (NumToken × Text) := do
  let (neg, t) := scanMinus t
  let (int, t) ← scanInt t
  let (frac, t) := scanFrac t
  let (exp, t) := scanExp t
  return (⟨neg, int, frac, exp⟩, t)

/-- What may follow a number: nothing it could go on with. -/
def NumStop (t : Text) : Prop := ∀ c ∈ t.head?, c.isDigit = false ∧ c ≠ '.' ∧ c ≠ 'e' ∧ c ≠ 'E'

theorem numStop_nil : NumStop [] := by simp [NumStop]

theorem numStop_cons {c : Char} {t : Text} (h : c = ',' ∨ c = ']' ∨ c = '}') : NumStop (c :: t) := by
  rcases h with rfl | rfl | rfl <;> simp [NumStop]

/-- A run of digits is read up to the first other character. -/
theorem scanDigits_append {ds r : Text} (hd : NumToken.Digits ds) (hr : ∀ c ∈ r.head?, c.isDigit = false) :
    scanDigits (ds ++ r) = some (ds, r) := by
  have ht : (ds ++ r).takeWhile Char.isDigit = ds := by
    rw [List.takeWhile_append_of_pos hd.2]
    cases r with
    | nil => simp
    | cons c r => simp [hr c rfl]
  have hdr : (ds ++ r).dropWhile Char.isDigit = r := by
    rw [List.dropWhile_append_of_pos hd.2]
    cases r with
    | nil => rfl
    | cons c r => simp [hr c rfl]
  rw [scanDigits, ht, hdr, if_neg hd.1]

/-- A digit is none of the letters of the grammar. -/
theorem ne_of_isDigit {c d : Char} (hc : c.isDigit = true) (hd : d.isDigit = false) : c ≠ d := by
  rintro rfl
  rw [hc] at hd
  cases hd

theorem head_digits {ds r : Text} {d : Char} (h : NumToken.Digits ds) (hd : d ∈ (ds ++ r).head?) :
    d.isDigit = true := by
  obtain ⟨hne, hall⟩ := h
  cases ds with
  | nil => exact absurd rfl hne
  | cons c ds =>
    simp only [List.cons_append, List.head?_cons, Option.mem_some_iff] at hd
    subst hd
    exact hall c List.mem_cons_self

theorem scanMinus_of_head {t : Text} (h : ∀ c ∈ t.head?, c ≠ '-') : scanMinus t = (false, t) := by
  cases t with
  | nil => rfl
  | cons c t =>
    have := h c rfl
    rw [scanMinus.eq_def]
    split
    · simp_all
    · rfl

theorem scanInt_append {ds r : Text} (hd : NumToken.Digits ds) (hl : ds = ['0'] ∨ ds.head? ≠ some '0')
    (hr : ∀ c ∈ r.head?, c.isDigit = false) : scanInt (ds ++ r) = some (ds, r) := by
  rcases hl with rfl | hl
  · rfl
  · have hne : ∀ t, ds ++ r ≠ '0' :: t := by
      intro t he
      cases ds with
      | nil => exact hd.1 rfl
      | cons c ds => simp at he hl; exact hl he.1
    rw [scanInt.eq_def]
    split
    · rename_i he
      exact absurd he (hne _)
    · exact scanDigits_append hd hr

theorem scanFrac_append {fr : Option Text} {r : Text} (hd : ∀ ds ∈ fr, NumToken.Digits ds)
    (hr : ∀ c ∈ r.head?, c.isDigit = false ∧ c ≠ '.') : scanFrac (NumToken.fracText fr ++ r) = (fr, r) := by
  cases fr with
  | some ds =>
    have hs := scanDigits_append (r := r) (hd ds rfl) (fun c hc => (hr c hc).1)
    simp only [NumToken.fracText, List.cons_append, scanFrac, hs]
  | none =>
    simp only [NumToken.fracText, List.nil_append]
    rw [scanFrac.eq_def]
    split
    · exact absurd rfl (hr '.' rfl).2
    · rfl

theorem scanSign_append {sign : Option Char} {t : Text} (hs : ∀ s ∈ sign, s = '+' ∨ s = '-')
    (ht : ∀ c ∈ t.head?, c.isDigit = true) : scanSign (sign.toList ++ t) = (sign, t) := by
  cases sign with
  | some s => simp [scanSign, hs s rfl]
  | none =>
    cases t with
    | nil => rfl
    | cons c t =>
      have hc := ht c rfl
      have h1 := ne_of_isDigit (d := '+') hc (by decide)
      have h2 := ne_of_isDigit (d := '-') hc (by decide)
      simp [scanSign, h1, h2]

theorem scanExp_append {ex : Option (Char × Option Char × Text)} {r : Text}
    (hd : ∀ e sign ds, ex = some (e, sign, ds) →
      (e = 'e' ∨ e = 'E') ∧ (∀ s ∈ sign, s = '+' ∨ s = '-') ∧ NumToken.Digits ds) (hr : NumStop r) :
    scanExp (NumToken.expText ex ++ r) = (ex, r) := by
  cases ex with
  | some p =>
    obtain ⟨e, sign, ds⟩ := p
    obtain ⟨he, hs, hds⟩ := hd e sign ds rfl
    have hsign := scanSign_append (t := ds ++ r) hs (fun c hc => head_digits hds hc)
    have hdig := scanDigits_append (r := r) hds (fun c hc => (hr c hc).1)
    simp only [NumToken.expText, List.cons_append, List.append_assoc, scanExp, if_pos he, hsign, hdig]
  | none =>
    cases r with
    | nil => rfl
    | cons c r =>
      obtain ⟨_, _, h1, h2⟩ := hr c rfl
      simp [NumToken.expText, scanExp, h1, h2]

theorem head_fracText {fr : Option Text} {t : Text} {P : Char → Prop} (hp : P '.') (ht : ∀ c ∈ t.head?, P c) :
    ∀ c ∈ (NumToken.fracText fr ++ t).head?, P c := by
  cases fr with
  | none => simpa [NumToken.fracText] using ht
  | some ds => simpa [NumToken.fracText] using hp

theorem head_expText {ex : Option (Char × Option Char × Text)} {t : Text} {P : Char → Prop}
    (hp : ∀ e sign ds, ex = some (e, sign, ds) → P e) (ht : ∀ c ∈ t.head?, P c) :
    ∀ c ∈ (NumToken.expText ex ++ t).head?, P c := by
  cases ex with
  | none => simpa [NumToken.expText] using ht
  | some p => simpa [NumToken.expText] using hp p.1 p.2.1 p.2.2 rfl

/-- **A number is read back as written.** -/
theorem scanNumber_text {n : NumToken} (hn : n.WF) {r : Text} (hr : NumStop r) :
    scanNumber (n.text ++ r) = some (n, r) := by
  obtain ⟨neg, int, frac, exp⟩ := n
  have hexp := scanExp_append hn.exp_digits hr
  have hfrac : scanFrac (NumToken.fracText frac ++ (NumToken.expText exp ++ r)) =
      (frac, NumToken.expText exp ++ r) := by
    refine scanFrac_append hn.frac_digits (head_expText ?_ fun c hc => ⟨(hr c hc).1, (hr c hc).2.1⟩)
    intro e sign ds he
    rcases (hn.exp_digits e sign ds he).1 with rfl | rfl <;> decide
  have hint : scanInt (int ++ (NumToken.fracText frac ++ (NumToken.expText exp ++ r))) =
      some (int, NumToken.fracText frac ++ (NumToken.expText exp ++ r)) := by
    refine scanInt_append hn.int_digits hn.int_lead
      (head_fracText (by decide) (head_expText ?_ fun c hc => (hr c hc).1))
    intro e sign ds he
    rcases (hn.exp_digits e sign ds he).1 with rfl | rfl <;> decide
  have hminus : scanMinus (NumToken.text ⟨neg, int, frac, exp⟩ ++ r) =
      (neg, int ++ (NumToken.fracText frac ++ (NumToken.expText exp ++ r))) := by
    cases neg with
    | true => simp [NumToken.text, scanMinus]
    | false =>
      simp only [NumToken.text, Bool.false_eq_true, ↓reduceIte, List.nil_append, List.append_assoc]
      exact scanMinus_of_head fun c hc => ne_of_isDigit (head_digits hn.int_digits hc) (by decide)
  simp [scanNumber, hminus, hint, hfrac, hexp]

/-! ## Progress -/

theorem scanDigits_length {t : Text} {p : Text × Text} (h : scanDigits t = some p) : p.2.length < t.length := by
  have happ : t.takeWhile Char.isDigit ++ t.dropWhile Char.isDigit = t := List.takeWhile_append_dropWhile
  have happ := congrArg List.length happ
  unfold scanDigits at h
  split at h
  · cases h
  · rename_i hne
    cases h
    have := List.length_pos_iff.mpr hne
    rw [List.length_append] at happ
    simp only
    omega

theorem scanInt_length {t : Text} {p : Text × Text} (h : scanInt t = some p) : p.2.length < t.length := by
  rw [scanInt.eq_def] at h
  split at h
  · cases h; simp
  · exact scanDigits_length h

theorem scanFrac_length (t : Text) : (scanFrac t).2.length ≤ t.length := by
  rw [scanFrac.eq_def]
  split
  · split
    · rename_i h
      have := scanDigits_length h
      simp only [List.length_cons] at this ⊢
      omega
    · exact Nat.le_refl _
  · exact Nat.le_refl _

theorem scanSign_length (t : Text) : (scanSign t).2.length ≤ t.length := by
  rw [scanSign.eq_def]
  split
  · exact Nat.le_refl _
  · split <;> simp

theorem scanExp_length (t : Text) : (scanExp t).2.length ≤ t.length := by
  rw [scanExp.eq_def]
  split
  · exact Nat.le_refl _
  · rename_i c t
    split
    · split
      · rename_i h
        have := scanDigits_length h
        have := scanSign_length t
        simp only [List.length_cons] at *
        omega
      · exact Nat.le_refl _
    · exact Nat.le_refl _

theorem scanMinus_length (t : Text) : (scanMinus t).2.length ≤ t.length := by
  rw [scanMinus.eq_def]
  split <;> simp

theorem scanNumber_length {t : Text} {p : NumToken × Text} (h : scanNumber t = some p) : p.2.length < t.length := by
  simp only [scanNumber, Option.bind_eq_bind, Option.pure_def, Option.bind_eq_some_iff, Option.some.injEq] at h
  obtain ⟨q, hq, rfl⟩ := h
  have h1 := scanInt_length hq
  have h2 := scanMinus_length t
  have h3 := scanFrac_length q.2
  have h4 := scanExp_length (scanFrac q.2).2
  simp only
  omega

/-! ## Integers -/

/-- The token of an integer. -/
def NumToken.ofInt (i : Int) : NumToken := ⟨decide (i < 0), Nat.toDigits 10 i.natAbs, none, none⟩

theorem toDigits_lead (n : Nat) : Nat.toDigits 10 n = ['0'] ∨ (Nat.toDigits 10 n).head? ≠ some '0' := by
  induction n using Nat.base_induction 10 (by decide) with
  | single m hm =>
    rw [Nat.toDigits_of_lt_base hm]
    by_cases h : m = 0
    · exact Or.inl (by subst h; rfl)
    · exact Or.inr (by simpa using h)
  | digit m k hk hm ih =>
    right
    rw [← Nat.toDigits_append_toDigits (by decide) hm hk]
    rcases ih with ih | ih
    · have := congrArg (fun ds => Nat.ofDigitChars 10 ds 0) ih
      simp [Nat.ofDigitChars_cons] at this
      omega
    · rwa [List.head?_append_of_ne_nil _ Nat.toDigits_ne_nil]

theorem NumToken.wf_ofInt (i : Int) : (NumToken.ofInt i).WF where
  int_digits := ⟨Nat.toDigits_ne_nil, fun _ hc => Nat.isDigit_of_mem_toDigits (by decide) (by decide) hc⟩
  int_lead := toDigits_lead _
  frac_digits := by simp [NumToken.ofInt]
  exp_digits := by simp [NumToken.ofInt]

theorem NumToken.toInt_ofInt (i : Int) : (NumToken.ofInt i).toInt = i := by
  simp only [NumToken.ofInt, NumToken.toInt, Nat.ofDigitChars_ten_toDigits, decide_eq_true_eq]
  split <;> omega

@[simp] theorem NumToken.isFloat_ofInt (i : Int) : (NumToken.ofInt i).isFloat = false := rfl

end PyLib
