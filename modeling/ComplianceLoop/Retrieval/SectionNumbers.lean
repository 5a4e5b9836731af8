import ComplianceLoop.PyLib.GroupSubst
import ComplianceLoop.Retrieval.CleanText

/-!
# The references of a preprocessed text (`_normalise_section_numbers`)

The two substitutions write `Section` for `Para` and `Clause`. Neither pattern has a match that touches the new word, so
no reference of the old forms is left (`not_occurs_normalise`), and the white space that `_clean_final` shortens
afterwards does not bring one back (`not_occurs_cleanFinal`). The documents that reach the chunker have none
(`preprocess_references`).
-/

set_option autoImplicit false

namespace ComplianceLoop

open PyLib Regex

/-- The number of a paragraph. -/
def dottedNumber : Regex := .cat (.some isDecimal) (.cat (.char (· = '.')) (.some isDecimal))

/-- A reference to a paragraph or to a clause. -/
def paraReference (W : WordChars) : Regex := .cat (referenceFront W "Para".toList) dottedNumber
def clauseReference (W : WordChars) : Regex := .cat (referenceFront W "Clause".toList) (.some isDecimal)

/-- What a group matches is a text of digits and dots, wherever it stands. -/
structure Numeral (s : Regex) (P : Text → Prop) : Prop where
  iff : ∀ prev v next, s.Matches prev v next ↔ P v
  ne_nil : ∀ v, P v → v ≠ []
  chars : ∀ v, P v → ∀ c ∈ v, isDecimal c = true ∨ c = '.'

/-! ## Numbers -/

theorem matches_some {p : Char → Bool} {prev next : Option Char} {u : Text} :
    (Regex.some p).Matches prev u next ↔ u ≠ [] ∧ ∀ c ∈ u, p c = true := by
  rw [Regex.some, Matches]
  constructor
  · rintro ⟨v, w, rfl, ⟨c, rfl, hc⟩, hw⟩
    exact ⟨List.cons_ne_nil _ _, List.forall_mem_cons.mpr ⟨hc, hw⟩⟩
  · rintro ⟨hne, hall⟩
    obtain ⟨c, u, rfl⟩ := List.exists_cons_of_ne_nil hne
    obtain ⟨hc, hu⟩ := List.forall_mem_cons.mp hall
    exact ⟨[c], u, rfl, ⟨c, rfl, hc⟩, hu⟩

theorem numeral_some : Numeral (.some isDecimal) fun v => v ≠ [] ∧ ∀ c ∈ v, isDecimal c = true where
  iff _ _ _ := matches_some
  ne_nil _ h := h.1
  chars _ h c hc := .inl (h.2 c hc)

theorem numeral_dotted : Numeral dottedNumber fun v => ∃ a b, v = a ++ '.' :: b ∧
    (a ≠ [] ∧ ∀ c ∈ a, isDecimal c = true) ∧ b ≠ [] ∧ ∀ c ∈ b, isDecimal c = true where
  iff prev v next := by
    rw [dottedNumber, Matches]
    constructor
    · rintro ⟨a, w, rfl, ha, b, b', rfl, ⟨c, rfl, hc⟩, hb⟩
      obtain rfl := of_decide_eq_true hc
      exact ⟨a, b', rfl, matches_some.mp ha, matches_some.mp hb⟩
    · rintro ⟨a, b, rfl, ha, hb⟩
      exact ⟨a, '.' :: b, rfl, matches_some.mpr ha, ['.'], b, rfl, ⟨'.', rfl, decide_eq_true rfl⟩, matches_some.mpr hb⟩
  ne_nil := by
    rintro v ⟨a, b, rfl, -⟩
    simp
  chars := by
    rintro v ⟨a, b, rfl, ⟨-, ha⟩, -, hb⟩ c hc
    rcases List.mem_append.mp hc with hc | hc
    · exact .inl (ha c hc)
    · rcases List.mem_cons.mp hc with rfl | hc
      · exact .inr rfl
      · exact .inl (hb c hc)

section

variable {W : WordChars} {word : Text} {first : Char} {s : Regex} {P : Text → Prop}

/-- Digits and dots are no white space. -/
theorem Numeral.not_isSpace (h : Numeral s P) (W : WordChars) {v : Text} (hv : P v) {c : Char} (hc : c ∈ v) :
    isSpace c = false := by
  rcases h.chars v hv c hc with hdecimal | rfl
  · by_contra hspace
    have hno := W.space c (Bool.not_eq_false _ ▸ hspace)
    rw [W.decimal c hdecimal] at hno
    cases hno
  · decide

/-! ## References -/

/-- A word of letters that has no white space and no digit. -/
structure ReferenceWord (W : WordChars) (word : Text) (first : Char) : Prop where
  head : word.head? = some first
  letter : W.isWord first = true
  notSpace : ∀ c ∈ word, isSpace c = false
  notDecimal : ∀ c ∈ word, isDecimal c = false

theorem ReferenceWord.of_ascii (hhead : word.head? = some first)
    (h : (word.all fun c => c.toNat < 128 && c.isAlphanum && !isSpace c && !isDecimal c) = true) :
    ReferenceWord W word first := by
  have hall : ∀ c ∈ word, (c.toNat < 128 ∧ c.isAlphanum = true) ∧ isSpace c = false ∧ isDecimal c = false := by
    intro c hc
    have := List.all_eq_true.mp h c hc
    simp only [Bool.and_eq_true, decide_eq_true_eq, Bool.not_eq_true'] at this
    exact ⟨this.1.1, this.1.2, this.2⟩
  refine ⟨hhead, ?_, fun c hc => (hall c hc).2.1, fun c hc => (hall c hc).2.2⟩
  obtain ⟨hascii, halnum⟩ := (hall first (List.mem_of_mem_head? hhead)).1
  rw [W.ascii first hascii, halnum, Bool.true_or]

theorem matches_referenceFront (hw : ReferenceWord W word first) {prev next : Option Char} {u : Text} :
    (referenceFront W word).Matches prev u next ↔
      prev.any W.isWord = false ∧ ∃ ws, u = word ++ ws ∧ ws ≠ [] ∧ ∀ c ∈ ws, isSpace c = true := by
  obtain ⟨rest, hrest⟩ := List.head?_eq_some_iff.mp hw.head
  simp only [referenceFront, boundary, Matches, bne_iff_ne]
  constructor
  · rintro ⟨v, w, rfl, ⟨rfl, hfront⟩, v', ws, rfl, hv', hws⟩
    obtain rfl := matches_literal.mp hv'
    refine ⟨?_, ws, List.nil_append _, matches_some.mp hws⟩
    rw [hrest, List.cons_append, List.head?_cons, Option.some_or, Option.any_some, hw.letter] at hfront
    exact Bool.eq_false_iff.mpr hfront
  · rintro ⟨hprev, ws, rfl, hws⟩
    refine ⟨[], word ++ ws, rfl, ⟨rfl, ?_⟩, word, ws, rfl, matches_literal.mpr rfl, matches_some.mpr hws⟩
    rw [hrest, List.cons_append, List.head?_cons, Option.some_or, Option.any_some, hw.letter, hprev]
    exact Bool.false_ne_true

theorem matches_reference (hw : ReferenceWord W word first) (hs : Numeral s P) {prev next : Option Char} {u : Text} :
    (cat (referenceFront W word) s).Matches prev u next ↔
      prev.any W.isWord = false ∧ ∃ ws v, u = word ++ (ws ++ v) ∧ (ws ≠ [] ∧ ∀ c ∈ ws, isSpace c = true) ∧ P v := by
  rw [Matches]
  constructor
  · rintro ⟨x, v, rfl, hx, hv⟩
    obtain ⟨hprev, ws, rfl, hws⟩ := (matches_referenceFront hw).mp hx
    exact ⟨hprev, ws, v, List.append_assoc _ _ _, hws, (hs.iff _ _ _).mp hv⟩
  · rintro ⟨hprev, ws, v, rfl, hws, hv⟩
    exact ⟨word ++ ws, v, (List.append_assoc _ _ _).symm, (matches_referenceFront hw).mpr ⟨hprev, ws, rfl, hws⟩,
      (hs.iff _ _ _).mpr hv⟩

theorem proper_referenceFront (hw : ReferenceWord W word first) : (referenceFront W word).Proper := by
  intro prev next hm
  obtain ⟨-, ws, hnil, hne, -⟩ := (matches_referenceFront hw).mp hm
  exact hne (List.append_eq_nil_iff.mp hnil.symm).2

/-- References are foreign to a substitution that writes `Section` before a number. -/
theorem foreign_reference (hw : ReferenceWord W word first) (hs : Numeral s P) {s' : Regex} {P' : Text → Prop}
    (hs' : Numeral s' P') (hfirst : first ∉ "Section ".toList) (hword : 'S' ∉ word) :
    ForeignTo (cat (referenceFront W word) s) s' "Section ".toList first where
  front prev u next hm := by
    obtain ⟨-, ws, v, rfl, -⟩ := (matches_reference hw hs).mp hm
    obtain ⟨rest, hrest⟩ := List.head?_eq_some_iff.mp hw.head
    rw [hrest]
    rfl
  newText := ⟨hfirst, by decide⟩
  group prev v next hm := by
    have hv := (hs'.iff _ _ _).mp hm
    refine ⟨hs'.ne_nil v hv, fun hmem => ?_⟩
    rcases hs'.chars v hv first hmem with hdecimal | rfl
    · rw [hw.notDecimal first (List.mem_of_mem_head? hw.head)] at hdecimal
      cases hdecimal
    · have hletter := hw.letter
      rw [W.ascii '.' (by decide)] at hletter
      exact absurd hletter (by decide)
  avoids prev u next hm c hc heq := by
    obtain rfl : 'S' = c := Option.some.inj heq
    obtain ⟨-, ws, v, rfl, ⟨-, hws⟩, hv⟩ := (matches_reference hw hs).mp hm
    rcases List.mem_append.mp hc with hc | hc
    · exact hword hc
    · rcases List.mem_append.mp hc with hc | hc
      · exact absurd (hws 'S' hc) (by decide)
      · rcases hs.chars v hv 'S' hc with hdecimal | hdot
        · exact absurd hdecimal (by decide)
        · exact absurd hdot (by decide)
  ahead prev u next next' hm := (matches_reference hw hs).mpr ((matches_reference hw hs).mp hm)

end

theorem para_word (W : WordChars) : ReferenceWord W "Para".toList 'P' := .of_ascii rfl (by decide)

theorem clause_word (W : WordChars) : ReferenceWord W "Clause".toList 'C' := .of_ascii rfl (by decide)

theorem foreign_para (W : WordChars) {s' : Regex} {P' : Text → Prop} (hs' : Numeral s' P') :
    ForeignTo (paraReference W) s' "Section ".toList 'P' :=
  foreign_reference (para_word W) numeral_dotted hs' (by decide) (by decide)

theorem foreign_clause (W : WordChars) {s' : Regex} {P' : Text → Prop} (hs' : Numeral s' P') :
    ForeignTo (clauseReference W) s' "Section ".toList 'C' :=
  foreign_reference (clause_word W) numeral_some hs' (by decide) (by decide)

/-! ## The substitutions -/

/-- A text without references of the old forms. -/
def Normalised (W : WordChars) (text : Text) : Prop :=
  ¬ (paraReference W).Occurs text ∧ ¬ (clauseReference W).Occurs text

/-- **The two substitutions leave no reference of the old forms.** -/
theorem not_occurs_normalise (W : WordChars) (text : Text) : Normalised W (normaliseSectionNumbers W text) := by
  have hpara : ¬ (paraReference W).Occurs
      ((referenceFront W "Para".toList).subGroup dottedNumber "Section ".toList text) :=
    not_occursFrom_subGroupFrom (proper_referenceFront (para_word W)) (foreign_para W numeral_dotted) text none
      fun _ _ _ hbegins => hbegins
  have hfront := proper_referenceFront (clause_word W)
  constructor
  · refine not_occursFrom_subGroupFrom hfront (foreign_para W numeral_some) _ none fun a b hab ⟨u, b', hb, hm⟩ => ?_
    -- there is none before the second substitution
    refine absurd ⟨a, u, b', ?_, hm⟩ hpara
    rw [List.append_assoc, ← hb]
    exact hab
  · exact not_occursFrom_subGroupFrom hfront (foreign_clause W numeral_some) _ none fun _ _ _ hbegins => hbegins

/-- A text without them stays as it is. -/
theorem normaliseSectionNumbers_of_normalised {W : WordChars} {text : Text} (h : Normalised W text) :
    normaliseSectionNumbers W text = text := by
  have hpara : (referenceFront W "Para".toList).subGroup dottedNumber "Section ".toList text = text :=
    subGroupFrom_of_not_occurs h.1
  have hclause : (referenceFront W "Clause".toList).subGroup (.some isDecimal) "Section ".toList text = text :=
    subGroupFrom_of_not_occurs h.2
  calc normaliseSectionNumbers W text
      = (referenceFront W "Clause".toList).subGroup (.some isDecimal) "Section ".toList
          ((referenceFront W "Para".toList).subGroup dottedNumber "Section ".toList text) := rfl
    _ = text := by rw [hpara, hclause]

/-- The digits of a text stay in their order. -/
theorem filter_isDecimal_normalise (W : WordChars) (text : Text) :
    (normaliseSectionNumbers W text).filter isDecimal = text.filter isDecimal := by
  have hfront : ∀ {word : Text} {first : Char}, ReferenceWord W word first → ∀ prev u next,
      (referenceFront W word).Matches prev u next → ∀ c ∈ u, isDecimal c = false := by
    intro word first hw prev u next hm c hc
    obtain ⟨-, ws, rfl, -, hws⟩ := (matches_referenceFront hw).mp hm
    rcases List.mem_append.mp hc with hc | hc
    · exact hw.notDecimal c hc
    · by_contra hdecimal
      have hword := W.decimal c (Bool.not_eq_false _ ▸ hdecimal)
      rw [W.space c (hws c hc)] at hword
      cases hword
  have hrepl : ∀ c ∈ "Section ".toList, isDecimal c = false := fun c hc => by
    have hall : ("Section ".toList.all fun c => !isDecimal c) = true := by decide
    simpa using List.all_eq_true.mp hall c hc
  have hsub : ∀ {word : Text} {first : Char} (s : Regex) (t : Text), ReferenceWord W word first →
      ((referenceFront W word).subGroup s "Section ".toList t).filter isDecimal = t.filter isDecimal :=
    fun s t hw => filter_subGroupFrom (proper_referenceFront hw) hrepl (hfront hw) t none
  calc (normaliseSectionNumbers W text).filter isDecimal
      = ((referenceFront W "Para".toList).subGroup dottedNumber "Section ".toList text).filter isDecimal :=
        hsub _ _ (clause_word W)
    _ = text.filter isDecimal := hsub _ _ (para_word W)

/-! ## White space -/

section

variable {W : WordChars} {word : Text} {first : Char} {s : Regex} {P : Text → Prop} {p : Char → Bool} {F : Text → Text}

theorem beginsAt_reference (hw : ReferenceWord W word first) (hs : Numeral s P) {prev : Option Char} {t : Text} :
    (cat (referenceFront W word) s).BeginsAt prev t ↔ prev.any W.isWord = false ∧
      ∃ ws v b, t = word ++ (ws ++ (v ++ b)) ∧ (ws ≠ [] ∧ ∀ c ∈ ws, isSpace c = true) ∧ P v := by
  constructor
  · rintro ⟨u, b, rfl, hm⟩
    obtain ⟨hprev, ws, v, rfl, hws, hv⟩ := (matches_reference hw hs).mp hm
    exact ⟨hprev, ws, v, b, by simp only [List.append_assoc], hws, hv⟩
  · rintro ⟨hprev, ws, v, b, rfl, hws, hv⟩
    exact ⟨word ++ (ws ++ v), b, by simp only [List.append_assoc],
      (matches_reference hw hs).mpr ⟨hprev, ws, v, rfl, hws, hv⟩⟩

/-- All that matters of the character before a text is whether it is part of a word. -/
theorem occursFrom_reference_prev (hw : ReferenceWord W word first) (hs : Numeral s P) {prev prev' : Option Char}
    (hprev : prev'.any W.isWord = false) {t : Text} (h : (cat (referenceFront W word) s).OccursFrom prev t) :
    (cat (referenceFront W word) s).OccursFrom prev' t := by
  obtain ⟨a, u, b, rfl, hm⟩ := h
  refine ⟨a, u, b, rfl, ?_⟩
  cases ha : a.getLast? with
  | none => exact (matches_reference hw hs).mpr ⟨hprev, ((matches_reference hw hs).mp hm).2⟩
  | some c =>
    rw [ha] at hm
    exact hm

/-- A reference in a text whose white space has been shortened was one before. -/
theorem beginsAt_of_runMap (hw : ReferenceWord W word first) (hs : Numeral s P) (hF : RunMap p F)
    (hp : ∀ c, p c = true → isSpace c = true) {prev : Option Char} {t : Text}
    (h : (cat (referenceFront W word) s).BeginsAt prev (F t)) : (cat (referenceFront W word) s).BeginsAt prev t := by
  have hnone : ∀ {x : Text}, (∀ c ∈ x, isSpace c = false) → ∀ c ∈ x, p c = false := by
    intro x hx c hc
    by_contra hpc
    have hspace := hp c (Bool.not_eq_false _ ▸ hpc)
    rw [hx c hc] at hspace
    cases hspace
  obtain ⟨hprev, ws, v, b, ht, ⟨hne, hws⟩, hv⟩ := (beginsAt_reference hw hs).mp h
  have hvSpace : ∀ c ∈ v, isSpace c = false := fun c hc => hs.not_isSpace W hv hc
  obtain ⟨u, rfl, hu⟩ := hF.eq_append_of_none (hnone hw.notSpace) ht
  obtain ⟨d, v', hd⟩ := List.exists_cons_of_ne_nil (hs.ne_nil v hv)
  obtain ⟨ws', u', rfl, hws', hne', hu'⟩ := hF.eq_append_of_space hp hws
    ⟨d, by rw [hd]; rfl, hvSpace d (hd ▸ List.mem_cons_self)⟩ hu
  obtain ⟨b', rfl, -⟩ := hF.eq_append_of_none (hnone hvSpace) hu'
  exact (beginsAt_reference hw hs).mpr ⟨hprev, ws', v, b', rfl, ⟨hne' hne, hws'⟩, hv⟩

theorem front_reference (hw : ReferenceWord W word first) (hs : Numeral s P) (prev : Option Char) (u : Text)
    (next : Option Char) (hm : (cat (referenceFront W word) s).Matches prev u next) : u.head? = some first := by
  obtain ⟨-, ws, v, rfl, -⟩ := (matches_reference hw hs).mp hm
  obtain ⟨rest, hrest⟩ := List.head?_eq_some_iff.mp hw.head
  rw [hrest]
  rfl

/-- The last character of white space is no part of a word. -/
theorem getLast?_space {x : Text} (hne : x ≠ []) (hx : ∀ c ∈ x, isSpace c = true) (prev : Option Char) :
    (x.getLast?.or prev).any W.isWord = false := by
  rw [List.getLast?_eq_some_getLast hne, Option.some_or, Option.any_some]
  exact W.space _ (hx _ (List.getLast_mem hne))

theorem occursFrom_of_runMap (hw : ReferenceWord W word first) (hs : Numeral s P) (hF : RunMap p F)
    (hp : ∀ c, p c = true → isSpace c = true) {prev : Option Char} {t : Text}
    (h : (cat (referenceFront W word) s).OccursFrom prev (F t)) :
    (cat (referenceFront W word) s).OccursFrom prev t := by
  induction hl : t.length using Nat.strong_induction_on generalizing t prev with
  | _ n ih =>
    by_cases hnil : t = []
    · rw [hnil, hF.nil] at h
      rwa [hnil]
    rcases cases_front p hnil with ⟨c, u, rfl, hc⟩ | ⟨r, u, rfl, hr, hall, hu⟩
    · rw [occursFrom_cons]
      rw [hF.cons hc, occursFrom_cons] at h
      rcases h with hbegins | hocc
      · refine .inl (beginsAt_of_runMap hw hs hF hp ?_)
        rwa [hF.cons hc]
      · exact .inr (ih u.length (by rw [← hl, List.length_cons]; omega) hocc rfl)
    · have hrSpace : ∀ c ∈ r, isSpace c = true := fun c hc => hp c (hall c hc)
      have hfirst : first ∉ F r := by
        intro hmem
        have hspace := hp first (hF.keeps r hall first hmem)
        rw [hw.notSpace first (List.mem_of_mem_head? hw.head)] at hspace
        cases hspace
      rw [hF.append_of_head hu] at h
      have hlt : u.length < n := by
        have := List.length_pos_iff.mpr hr
        rw [← hl, List.length_append]
        omega
      have hocc := ih u.length hlt (occursFrom_append_of_notMem (front_reference hw hs) hfirst h) rfl
      obtain ⟨a, x, b, rfl, hm⟩ := occursFrom_reference_prev hw hs (getLast?_space hr hrSpace prev) hocc
      refine ⟨r ++ a, x, b, by simp only [List.append_assoc], ?_⟩
      rwa [List.getLast?_append, Option.or_assoc]

theorem occurs_of_strip (hw : ReferenceWord W word first) (hs : Numeral s P) {t : Text}
    (h : (cat (referenceFront W word) s).Occurs (strip t)) : (cat (referenceFront W word) s).Occurs t := by
  obtain ⟨l, r, ht, hl, -⟩ := exists_strip t
  have hprev : (l.getLast?.or none).any W.isWord = false := by
    by_cases hnil : l = []
    · rw [hnil]
      rfl
    · exact getLast?_space hnil hl none
  obtain ⟨a, u, b, hab, hm⟩ := occursFrom_reference_prev hw hs hprev h
  refine ⟨l ++ a, u, b ++ r, ?_, ?_⟩
  · rw [ht, hab]
    simp only [List.append_assoc]
  · rw [List.getLast?_append, Option.or_assoc]
    exact (matches_reference hw hs).mpr ((matches_reference hw hs).mp hm)

end

/-- **The cleaning brings no reference back.** -/
theorem normalised_cleanFinal {W : WordChars} {text : Text} (h : Normalised W text) :
    Normalised W (cleanFinal text) := by
  have hspace : ∀ c, isBlankChar c = true → isSpace c = true := fun _ => isSpace_of_isBlankChar
  have hbreak : ∀ c, isBreak c = true → isSpace c = true := fun _ => isSpace_of_isBreak
  have hkept : ∀ {word : Text} {first : Char} {s : Regex} {P : Text → Prop}, ReferenceWord W word first → Numeral s P →
      (cat (referenceFront W word) s).Occurs (cleanFinal text) → (cat (referenceFront W word) s).Occurs text := by
    intro word first s P hw hs hocc
    have hcollapsed := occursFrom_of_runMap hw hs runMap_collapseNewlines hbreak (occurs_of_strip hw hs hocc)
    exact occursFrom_of_runMap hw hs runMap_collapseSpaces hspace hcollapsed
  exact ⟨fun hocc => h.1 (hkept (para_word W) numeral_dotted hocc),
    fun hocc => h.2 (hkept (clause_word W) numeral_some hocc)⟩

/-- **No document that the preprocessor makes has a reference of the old forms, whatever is switched off**: to normalise
its section numbers again changes nothing. No digit is lost or moved on the way. -/
theorem preprocess_references (W : WordChars) (text sourceDocumentId sourceUrl : Text) (switches : PreprocessSwitches) :
    ¬ (paraReference W).Occurs (preprocess W text sourceDocumentId sourceUrl switches).text ∧
      ¬ (clauseReference W).Occurs (preprocess W text sourceDocumentId sourceUrl switches).text ∧
        normaliseSectionNumbers W (preprocess W text sourceDocumentId sourceUrl switches).text =
          (preprocess W text sourceDocumentId sourceUrl switches).text ∧
        (normaliseSectionNumbers W text).filter isDecimal = text.filter isDecimal := by
  have h : Normalised W (preprocess W text sourceDocumentId sourceUrl switches).text :=
    normalised_cleanFinal (not_occurs_normalise W _)
  exact ⟨h.1, h.2, normaliseSectionNumbers_of_normalised h, filter_isDecimal_normalise W text⟩

end ComplianceLoop
