import Mathlib.Algebra.Group.Nat.Defs
import Mathlib.Data.List.Infix

/-!
# Python text, bytes and exceptions

Python strings that come from a database column, a digest or a decoded file are lists of Unicode scalar values
(`Text`); byte strings are lists of octets. Strict UTF-8 is Lean's own codec (`utf8`, `utf8Decode`), so encoding is
injective (`utf8_injective`). `lower` is `str.lower`, `compareDigest` is `hmac.compare_digest` on two strings, and
`pad` is the zero-padded decimal of a format such as `%04d`.
-/

set_option autoImplicit false

namespace PyLib

/-- A string of Unicode scalar values. -/
abbrev Text := List Char

/-- A byte string. -/
abbrev Bytes := List UInt8

/-! ## Exceptions -/

/-- The exception classes that matter to a caller. -/
inductive ExcType where
  | valueError
  | typeError
  | keyError
  | attributeError
  | runtimeError
  | overflowError
  | unicodeEncodeError
  | jsonDecodeError
  | invalidTag
  | structError
  | osError
  | databaseError
  | storeError
  deriving DecidableEq, Repr

/-- A raised exception: its class and its text. -/
structure PyExc where
  type : ExcType
  msg : Text
  deriving DecidableEq, Repr

/-- `raise T(msg)`. -/
def raise {α : Type} (type : ExcType) (msg : Text) : Except PyExc α := .error ⟨type, msg⟩

/-- Whether a call returned. -/
def returned {α : Type} : Except PyExc α → Bool
  | .ok _ => true
  | .error _ => false

@[simp] theorem returned_ok {α : Type} (a : α) : returned (.ok a : Except PyExc α) = true := rfl

@[simp] theorem returned_error {α : Type} (e : PyExc) : returned (.error e : Except PyExc α) = false := rfl

@[simp] theorem returned_raise {α : Type} (ty : ExcType) (m : Text) : returned (raise ty m : Except PyExc α) = false :=
  rfl

@[simp] theorem raise_bind {α β : Type} (ty : ExcType) (m : Text) (f : α → Except PyExc β) :
    (raise ty m : Except PyExc α).bind f = raise ty m := rfl

@[simp] theorem ok_bind {α β : Type} (a : α) (f : α → Except PyExc β) : (Except.ok a : Except PyExc α).bind f = f a :=
  rfl

@[simp] theorem error_bind {α β : Type} (e : PyExc) (f : α → Except PyExc β) :
    (Except.error e : Except PyExc α).bind f = .error e := rfl

@[simp] theorem raise_map {α β : Type} (ty : ExcType) (m : Text) (f : α → β) :
    (raise ty m : Except PyExc α).map f = raise ty m := rfl

@[simp] theorem ok_map {α β : Type} (a : α) (f : α → β) : (Except.ok a : Except PyExc α).map f = .ok (f a) := rfl

@[simp] theorem error_map {α β : Type} (e : PyExc) (f : α → β) : (Except.error e : Except PyExc α).map f = .error e :=
  rfl

@[simp] theorem raise_ne_ok {α : Type} (ty : ExcType) (m : Text) (a : α) : (raise ty m : Except PyExc α) ≠ .ok a := by
  intro h
  cases h

/-- A sequence of two calls that returned: both did. -/
theorem bind_eq_ok {α β : Type} {x : Except PyExc α} {f : α → Except PyExc β} {b : β} :
    x.bind f = .ok b ↔ ∃ a, x = .ok a ∧ f a = .ok b := by
  cases x <;> simp

theorem map_eq_ok {α β : Type} {x : Except PyExc α} {f : α → β} {b : β} :
    x.map f = .ok b ↔ ∃ a, x = .ok a ∧ f a = b := by
  cases x <;> simp

theorem map_eq_error {α β : Type} {x : Except PyExc α} {f : α → β} {e : PyExc} :
    x.map f = .error e ↔ x = .error e := by
  cases x <;> simp

/-- A sequence of calls that raised: one of them did. -/
theorem mapM_eq_error {α β : Type} {f : α → Except PyExc β} {e : PyExc} :
    ∀ {l : List α}, l.mapM f = .error e → ∃ a ∈ l, f a = .error e
  | [], h => by cases h
  | a :: l, h => by
    rw [List.mapM_cons] at h
    cases ha : f a with
    | error e' =>
      rw [ha] at h
      exact ⟨a, List.mem_cons_self, ha.trans (congrArg Except.error (Except.error.inj h))⟩
    | ok b =>
      rw [ha] at h
      cases hl : l.mapM f with
      | error e' =>
        rw [hl] at h
        obtain ⟨a', hmem, ha'⟩ := mapM_eq_error hl
        exact ⟨a', List.mem_cons_of_mem a hmem, ha'.trans (congrArg Except.error (Except.error.inj h))⟩
      | ok bs =>
        rw [hl] at h
        cases h

theorem returned_bind {α β : Type} {x : Except PyExc α} {f : α → Except PyExc β} :
    returned (x.bind f) = true ↔ ∃ a, x = .ok a ∧ returned (f a) = true := by
  cases x <;> simp

@[simp] theorem returned_map {α β : Type} {x : Except PyExc α} {f : α → β} : returned (x.map f) = returned x := by
  cases x <;> rfl

theorem returned_iff {α : Type} {x : Except PyExc α} : returned x = true ↔ ∃ a, x = .ok a := by
  cases x <;> simp

theorem mapM_cons_eq_ok {α β : Type} {f : α → Except PyExc β} {a : α} {l : List α} {bs : List β} :
    (a :: l).mapM f = .ok bs ↔ ∃ b bs', f a = .ok b ∧ l.mapM f = .ok bs' ∧ bs = b :: bs' := by
  rw [List.mapM_cons]
  show ((f a).bind fun b => (l.mapM f).bind fun bs' => .ok (b :: bs')) = .ok bs ↔ _
  rw [bind_eq_ok]
  refine exists_congr fun b => ?_
  rw [bind_eq_ok, ← exists_and_left]
  simp only [Except.ok.injEq, eq_comm]

/-- A sequence of calls returns if and only if all of them do. -/
theorem returned_mapM {α β : Type} {f : α → Except PyExc β} (l : List α) :
    returned (l.mapM f) = true ↔ ∀ a ∈ l, returned (f a) = true := by
  simp only [returned_iff]
  induction l with
  | nil => exact iff_of_true ⟨[], rfl⟩ (by simp)
  | cons a l ih =>
    rw [List.forall_mem_cons, ← ih]
    constructor
    · rintro ⟨bs, h⟩
      obtain ⟨b, bs', hb, hbs, -⟩ := mapM_cons_eq_ok.mp h
      exact ⟨⟨b, hb⟩, bs', hbs⟩
    · rintro ⟨⟨b, hb⟩, bs', hbs⟩
      exact ⟨b :: bs', mapM_cons_eq_ok.mpr ⟨b, bs', hb, hbs, rfl⟩⟩

/-- What is read off the results is read off the arguments. -/
theorem map_of_mapM {α β γ : Type} {f : α → Except PyExc β} {g : β → γ} {h : α → γ}
    (hg : ∀ {a b}, f a = .ok b → g b = h a) : ∀ {l : List α} {bs : List β}, l.mapM f = .ok bs → bs.map g = l.map h
  | [], _, hl => by cases hl; rfl
  | a :: l, _, hl => by
    obtain ⟨b, bs, hb, hbs, rfl⟩ := mapM_cons_eq_ok.mp hl
    rw [List.map_cons, List.map_cons, hg hb, map_of_mapM hg hbs]

/-! ## UTF-8 -/

/-- `t.encode("utf-8")`. -/
def utf8 (t : Text) : Bytes := t.flatMap String.utf8EncodeChar

/-- `b.decode("utf-8")` in the strict mode; `none` where Python raises. -/
def utf8Decode (b : Bytes) : Option Text := b.toByteArray.utf8Decode?.map Array.toList

theorem utf8Decode_utf8 (t : Text) : utf8Decode (utf8 t) = some t := by
  have h : (utf8 t).toByteArray = t.utf8Encode := rfl
  rw [utf8Decode, h, List.utf8Decode?_utf8Encode]
  simp

theorem utf8_injective : Function.Injective utf8 := by
  intro s t h
  have := congrArg utf8Decode h
  simpa [utf8Decode_utf8] using this

@[simp] theorem utf8_inj {s t : Text} : utf8 s = utf8 t ↔ s = t := utf8_injective.eq_iff

@[simp] theorem utf8_eq_nil {t : Text} : utf8 t = [] ↔ t = [] := by
  rw [← utf8_inj (s := t) (t := [])]
  rfl

/-! ## Case and ASCII -/

/-- `t.isascii()`. -/
def isAscii (t : Text) : Bool := t.all (·.toNat < 128)

/-- `str.lower` on one character: the two non-ASCII characters whose lower case has an ASCII letter are given. Every
other non-ASCII character has a lower case without any, and keeps its own spelling: the callers compare the result
with ASCII text only. -/
def lowerChar (c : Char) : Text :=
  if c = '\u0130' then ['i', '\u0307'] else if c = '\u212A' then ['k'] else [c.toLower]

/-- `t.lower()`. -/
def lower (t : Text) : Text := t.flatMap lowerChar

@[simp] theorem lower_nil : lower [] = [] := rfl

@[simp] theorem lower_append (s t : Text) : lower (s ++ t) = lower s ++ lower t := by simp [lower]

/-- A lower-case hexadecimal digit. -/
def isLowerHex (c : Char) : Bool := c.isDigit || ('a' ≤ c && c ≤ 'f')

/-- A string of lower-case hexadecimal digits, as `hexdigest()` returns. -/
def LowerHex (t : Text) : Prop := ∀ c ∈ t, isLowerHex c = true

instance (t : Text) : Decidable (LowerHex t) := List.decidableBAll (fun c => isLowerHex c = true) t

theorem isLowerHex_range {c : Char} (h : isLowerHex c = true) :
    (48 ≤ c.toNat ∧ c.toNat ≤ 57) ∨ (97 ≤ c.toNat ∧ c.toNat ≤ 102) := by
  simp only [isLowerHex, Char.isDigit, Bool.or_eq_true, Bool.and_eq_true, decide_eq_true_eq, ge_iff_le,
    UInt32.le_iff_toNat_le, Char.le_def] at h
  exact h

/-- `Char.toLower` only moves the letters from `A` to `Z`. -/
theorem toLower_of_lt_or_gt {c : Char} (h : c.toNat < 65 ∨ 90 < c.toNat) : c.toLower = c := by
  have hn : ¬ (c.val ≥ 'A'.val ∧ c.val ≤ 'Z'.val) := by
    rintro ⟨h1, h2⟩
    have h1 : 65 ≤ c.toNat := UInt32.le_iff_toNat_le.mp h1
    have h2 : c.toNat ≤ 90 := UInt32.le_iff_toNat_le.mp h2
    omega
  exact dif_neg hn

theorem lowerChar_of_isLowerHex {c : Char} (h : isLowerHex c = true) : lowerChar c = [c] := by
  have hr := isLowerHex_range h
  have h1 : c ≠ '\u0130' := by rintro rfl; simp at hr
  have h2 : c ≠ '\u212A' := by rintro rfl; simp at hr
  rw [lowerChar, if_neg h1, if_neg h2, toLower_of_lt_or_gt (by omega)]

/-- Lower-case hexadecimal text is its own lower case. -/
theorem lower_of_lowerHex {t : Text} (h : LowerHex t) : lower t = t := by
  induction t with
  | nil => rfl
  | cons c t ih =>
    simp only [lower, List.flatMap_cons] at ih ⊢
    rw [lowerChar_of_isLowerHex (h c List.mem_cons_self), ih fun d hd => h d (List.mem_cons_of_mem _ hd)]
    rfl

theorem isAscii_of_lowerHex {t : Text} (h : LowerHex t) : isAscii t = true := by
  simp only [isAscii, List.all_eq_true, decide_eq_true_eq]
  intro c hc
  have := isLowerHex_range (h c hc)
  omega

/-- `hmac.compare_digest(a, b)` on two strings. -/
def compareDigest (a b : Text) : Except PyExc Bool :=
  if isAscii a && isAscii b then .ok (a == b)
  else raise .typeError "comparing strings with non-ASCII characters is not supported".toList

theorem compareDigest_of_ascii {a b : Text} (ha : isAscii a = true) (hb : isAscii b = true) :
    compareDigest a b = .ok (a == b) := by
  simp [compareDigest, ha, hb]

theorem compareDigest_eq_true {a b : Text} (h : compareDigest a b = .ok true) : a = b := by
  unfold compareDigest at h
  split at h
  · simpa using h
  · cases h

/-! ## Separated fields -/

/-- A field without the separator is read off the text up to its first separator. -/
theorem append_sep_inj {s : Char} : ∀ {a b r t : Text}, s ∉ a → s ∉ b → a ++ s :: r = b ++ s :: t → a = b ∧ r = t
  | [], [], _, _, _, _, h => ⟨rfl, (List.cons.inj h).2⟩
  | [], c :: b, _, _, _, hb, h => absurd ((List.cons.inj h).1 ▸ List.mem_cons_self) hb
  | c :: a, [], _, _, ha, _, h => absurd ((List.cons.inj h).1 ▸ List.mem_cons_self) ha
  | c :: a, d :: b, _, _, ha, hb, h => by
    simp only [List.cons_append, List.cons.injEq] at h
    obtain ⟨hab, hr⟩ := append_sep_inj (fun hm => ha (List.mem_cons_of_mem _ hm))
      (fun hm => hb (List.mem_cons_of_mem _ hm)) h.2
    exact ⟨List.cons_eq_cons.mpr ⟨h.1, hab⟩, hr⟩

/-- A field without the separator is read off the text after its last separator. -/
theorem append_sep_inj_right {s : Char} {a b r t : Text} (hr : s ∉ r) (ht : s ∉ t) (h : a ++ s :: r = b ++ s :: t) :
    a = b ∧ r = t := by
  have hrev := congrArg List.reverse h
  simp only [List.reverse_append, List.reverse_cons, List.append_assoc, List.singleton_append] at hrev
  obtain ⟨h1, h2⟩ := append_sep_inj (by simpa using hr) (by simpa using ht) hrev
  exact ⟨List.reverse_inj.mp h2, List.reverse_inj.mp h1⟩

/-! ## Padded decimals -/

/-- The decimal numeral of `n` with leading zeros up to `w` digits. -/
def pad (w n : Nat) : Text := List.replicate (w - (Nat.toDigits 10 n).length) '0' ++ Nat.toDigits 10 n

theorem length_pad {w n : Nat} (hw : 0 < w) (hn : n < 10 ^ w) : (pad w n).length = w := by
  have := (Nat.length_toDigits_le_iff (b := 10) (by decide) hw).2 hn
  simp only [pad, List.length_append, List.length_replicate]
  omega

theorem pad_injective (w : Nat) : Function.Injective (pad w) := by
  intro m n h
  have hv : ∀ k, Nat.ofDigitChars 10 (pad w k) 0 = k := fun k => by simp [pad, Nat.ofDigitChars_append]
  rw [← hv m, h, hv n]

theorem isDigit_of_mem_pad {w n : Nat} {c : Char} (h : c ∈ pad w n) : c.isDigit = true := by
  rcases List.mem_append.mp h with h | h
  · rw [List.eq_of_mem_replicate h]; rfl
  · exact Nat.isDigit_of_mem_toDigits (by decide) (by decide) h

end PyLib
