import ComplianceLoop.PyLib.Regex

/-!
# Upper case and white space

`upper` is a spelling-out of the characters whose upper case is ASCII, followed by the upper case of ASCII
(`upper_eq_map`). Neither makes white space or takes it away, so it does not matter whether a text is stripped before or
behind it (`strip_upper`).
-/

set_option autoImplicit false

namespace PyLib

/-! ## Stripping the image of a text -/

section

variable {p : Char → Bool} {f : Char → Text}

theorem dropWhile_flatMap (hne : ∀ c, f c ≠ []) (hp : ∀ c, ∀ d ∈ f c, p d = p c) (t : Text) :
    (t.flatMap f).dropWhile p = (t.dropWhile p).flatMap f := by
  induction t with
  | nil => rfl
  | cons c t ih =>
    rw [List.flatMap_cons]
    cases hc : p c with
    | true =>
      rw [List.dropWhile_append_of_pos fun d hd => (hp c d hd).trans hc, ih, List.dropWhile_cons_of_pos hc]
    | false =>
      obtain ⟨d, r, hd⟩ := List.exists_cons_of_ne_nil (hne c)
      have hpd : ¬ p d = true := by
        rw [hp c d (hd ▸ List.mem_cons_self), hc]
        exact Bool.false_ne_true
      rw [List.dropWhile_cons_of_neg (by simp [hc]), List.flatMap_cons, hd, List.cons_append,
        List.dropWhile_cons_of_neg hpd]

/-- Characters that are spelled with characters of their own kind can be spelled before or behind the stripping. -/
theorem stripChars_flatMap (hne : ∀ c, f c ≠ []) (hp : ∀ c, ∀ d ∈ f c, p d = p c) (t : Text) :
    stripChars p (t.flatMap f) = (stripChars p t).flatMap f := by
  have hne' : ∀ c, (List.reverse ∘ f) c ≠ [] := fun c => List.reverse_ne_nil_iff.mpr (hne c)
  have hp' : ∀ c, ∀ d ∈ (List.reverse ∘ f) c, p d = p c := fun c d hd => hp c d (List.mem_reverse.mp hd)
  rw [stripChars, dropWhile_flatMap hne hp, List.rdropWhile, List.reverse_flatMap, dropWhile_flatMap hne' hp',
    List.reverse_flatMap, stripChars, List.rdropWhile]
  congr 1
  funext c
  exact List.reverse_reverse (f c)

theorem stripChars_stripChars (p : Char → Bool) (t : Text) : stripChars p (stripChars p t) = stripChars p t := by
  have hd : (stripChars p t).dropWhile p = stripChars p t := by
    rw [stripChars]
    cases ht : t.dropWhile p with
    | nil => rfl
    | cons c r =>
      have hne : t.dropWhile p ≠ [] := by
        rw [ht]
        exact List.cons_ne_nil c r
      have hc : ¬ p c = true := by
        have hhead := List.head_dropWhile_not p hne
        simp only [ht, List.head_cons] at hhead
        rw [hhead]
        exact Bool.false_ne_true
      cases hr : (c :: r).rdropWhile p with
      | nil => exact absurd (List.rdropWhile_eq_nil_iff.mp hr c List.mem_cons_self) hc
      | cons c' r' =>
        obtain ⟨u, hu⟩ := List.rdropWhile_prefix p (l := c :: r)
        rw [hr, List.cons_append, List.cons.injEq] at hu
        rw [List.dropWhile_cons_of_neg (hu.1 ▸ hc)]
  conv_lhs => rw [stripChars, hd]
  exact List.rdropWhile_idempotent p _

end

/-! ## ASCII letters -/

theorem toUpper_of_wide {c : Char} (h : 128 ≤ c.toNat) : c.toUpper = c := by
  have hnot : ¬ ('a'.val ≤ c.val ∧ c.val ≤ 'z'.val) := by
    rintro ⟨-, hz⟩
    have : c.toNat ≤ 122 := hz
    omega
  exact dif_neg hnot

theorem toNat_of_isAlpha {c : Char} (h : c.isAlpha = true) : c.toNat < 128 := by
  rcases isAlpha_iff.mp h with h | h
  · have hz : c.toNat ≤ 90 := (isUpper_iff.mp h).2
    omega
  · have hz : c.toNat ≤ 122 := (isLower_iff.mp h).2
    omega

theorem toNat_of_isDigit {c : Char} (h : c.isDigit = true) : c.toNat < 128 := by
  have hz : c.toNat ≤ 57 := (isDigit_iff.mp h).2
  omega

/-- What the upper case keeps of an ASCII character. -/
theorem upper_ascii : ∀ n < 128, isUpperLetter (Char.ofNat n).toUpper = (Char.ofNat n).isAlpha ∧
    (Char.ofNat n).toUpper.isDigit = (Char.ofNat n).isDigit ∧ isSpace (Char.ofNat n).toUpper = isSpace (Char.ofNat n) ∧
    getItem (Char.ofNat n).toNat asciiUppers = none ∧ (Char.ofNat n).toUpper.toNat < 128 ∧
    (Char.ofNat n).toUpper.toUpper = (Char.ofNat n).toUpper := by
  decide

theorem toUpper_toUpper (c : Char) : c.toUpper.toUpper = c.toUpper := by
  by_cases h : c.toNat < 128
  · have hc := (upper_ascii c.toNat h).2.2.2.2.2
    rwa [Char.ofNat_toNat] at hc
  · rw [toUpper_of_wide (Nat.le_of_not_lt h), toUpper_of_wide (Nat.le_of_not_lt h)]

theorem isUpperLetter_toUpper (c : Char) : isUpperLetter c.toUpper = c.isAlpha := by
  by_cases h : c.toNat < 128
  · have hc := (upper_ascii c.toNat h).1
    rwa [Char.ofNat_toNat] at hc
  · have halpha : c.isAlpha = false := Bool.eq_false_iff.mpr fun ha => h (toNat_of_isAlpha ha)
    rw [toUpper_of_wide (Nat.le_of_not_lt h), halpha, isUpperLetter, Bool.and_eq_false_imp]
    intro _
    exact decide_eq_false fun hz => h (Nat.lt_of_le_of_lt (UInt32.le_iff_toNat_le.mp hz) (by decide))

theorem isDigit_toUpper (c : Char) : c.toUpper.isDigit = c.isDigit := by
  by_cases h : c.toNat < 128
  · have hc := (upper_ascii c.toNat h).2.1
    rwa [Char.ofNat_toNat] at hc
  · rw [toUpper_of_wide (Nat.le_of_not_lt h)]

theorem isSpace_toUpper (c : Char) : isSpace c.toUpper = isSpace c := by
  by_cases h : c.toNat < 128
  · have hc := (upper_ascii c.toNat h).2.2.1
    rwa [Char.ofNat_toNat] at hc
  · rw [toUpper_of_wide (Nat.le_of_not_lt h)]

theorem getItem_asciiUppers_ascii {c : Char} (h : c.toNat < 128) : getItem c.toNat asciiUppers = none := by
  have hc := (upper_ascii c.toNat h).2.2.2.1
  rwa [Char.ofNat_toNat] at hc

/-! ## `upper` -/

/-- `t` with the characters whose upper case is ASCII spelled out. -/
def spellOut (t : Text) : Text := t.flatMap fun c => (getItem c.toNat asciiUppers).getD [c]

theorem spellOut_ascii {t : Text} (h : isAscii t = true) : spellOut t = t := by
  rw [isAscii, List.all_eq_true] at h
  have hsingle : ∀ c ∈ t, (getItem c.toNat asciiUppers).getD [c] = [c] := fun c hc => by
    rw [getItem_asciiUppers_ascii (of_decide_eq_true (h c hc)), Option.getD_none]
  rw [spellOut, List.flatMap_congr hsingle, List.flatMap_singleton']

/-- The spellings are of upper-case letters. -/
theorem spellings : ∀ m ∈ asciiUppers, m.2 ≠ [] ∧ m.2.map Char.toUpper = m.2 ∧ (∀ d ∈ m.2, isSpace d = false) ∧
    isSpace (Char.ofNat m.1) = false ∧ ∀ d ∈ m.2, d.toNat < 128 := by
  have hall : ∀ m ∈ asciiUppers, m.2 ≠ [] ∧ m.2.map Char.toUpper = m.2 ∧ m.2.all (!isSpace ·) = true ∧
      isSpace (Char.ofNat m.1) = false ∧ isAscii m.2 = true := by decide
  intro m hm
  obtain ⟨hne, hupper, hspace, hfirst, hascii⟩ := hall m hm
  rw [isAscii, List.all_eq_true] at hascii
  exact ⟨hne, hupper, by simpa using hspace, hfirst, fun d hd => of_decide_eq_true (hascii d hd)⟩

theorem upper_eq_map (t : Text) : upper t = (spellOut t).map Char.toUpper := by
  rw [upper, spellOut, List.map_flatMap]
  congr 1
  funext c
  cases hg : getItem c.toNat asciiUppers with
  | none => rfl
  | some w => exact (spellings (c.toNat, w) (getItem_mem hg)).2.1.symm

/-- What is spelled out and upper-cased has no characters left to spell out. -/
theorem spellOut_upper (t : Text) : spellOut (upper t) = upper t := by
  have hsingle : ∀ c ∈ upper t, (getItem c.toNat asciiUppers).getD [c] = [c] := by
    intro c hc
    rw [upper, List.mem_flatMap] at hc
    obtain ⟨d, -, hd⟩ := hc
    cases hg : getItem d.toNat asciiUppers with
    | none =>
      rw [hg, Option.getD_none, List.mem_singleton] at hd
      by_cases h : d.toNat < 128
      · have hd' := (upper_ascii d.toNat h).2.2.2.2.1
        rw [Char.ofNat_toNat, ← hd] at hd'
        rw [getItem_asciiUppers_ascii hd', Option.getD_none]
      · rw [hd, toUpper_of_wide (Nat.le_of_not_lt h), hg, Option.getD_none]
    | some w =>
      rw [hg, Option.getD_some] at hd
      obtain ⟨-, -, -, -, hw⟩ := spellings (d.toNat, w) (getItem_mem hg)
      rw [getItem_asciiUppers_ascii (hw c hd), Option.getD_none]
  rw [spellOut, List.flatMap_congr hsingle, List.flatMap_singleton']

theorem upper_upper (t : Text) : upper (upper t) = upper t := by
  conv_lhs => rw [upper_eq_map, spellOut_upper]
  rw [upper_eq_map, List.map_map]
  exact List.map_congr_left fun c _ => toUpper_toUpper c

/-- **Stripping and upper-casing commute.** -/
theorem strip_upper (t : Text) : strip (upper t) = upper (strip t) := by
  refine stripChars_flatMap (fun c => ?_) (fun c d hd => ?_) t
  · cases hg : getItem c.toNat asciiUppers with
    | none => exact List.cons_ne_nil _ _
    | some w => exact (spellings (c.toNat, w) (getItem_mem hg)).1
  · cases hg : getItem c.toNat asciiUppers with
    | none =>
      rw [hg, Option.getD_none, List.mem_singleton] at hd
      rw [hd]
      exact isSpace_toUpper c
    | some w =>
      rw [hg, Option.getD_some] at hd
      obtain ⟨-, -, hd', hc, -⟩ := spellings (c.toNat, w) (getItem_mem hg)
      rw [Char.ofNat_toNat] at hc
      exact (hd' d hd).trans hc.symm

/-- The upper-cased and stripped text is a fixpoint of both. -/
theorem strip_upper_strip_upper (t : Text) : strip (upper (strip (upper t))) = strip (upper t) := by
  rw [strip_upper t, upper_upper, strip_upper]
  exact congrArg upper (stripChars_stripChars _ t)

end PyLib
