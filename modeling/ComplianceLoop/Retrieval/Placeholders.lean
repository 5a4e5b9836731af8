import ComplianceLoop.PyLib.Marks
import ComplianceLoop.Retrieval.Chunker

/-!
# Placeholders of abbreviations (`_split_into_sentences`)

Before a text is split, each abbreviation in it is replaced by a placeholder `__ABBRn__`, one abbreviation after
another, and after the split each placeholder is replaced by its abbreviation. Every text is one with marks, the
abbreviations that are protected, and what is split is the text with the marks shown as placeholders (`protectAll_eq`).
The marks come back unless a placeholder is read that none of them is (`visible_restore_iff`), which takes a text that
holds `ABBRn` itself (`strayMatch_iff_formsPlaceholder`).
-/

set_option autoImplicit false

namespace ComplianceLoop

open PyLib

/-! ## The tables -/

/-- `abbreviations[n]`. -/
def abbr (n : Nat) : Text := abbreviations.getD n []

/-- `ABBRn`. -/
def number (n : Nat) : Text := "ABBR".toList ++ Nat.toDigits 10 n

/-- `__ABBRn__`. -/
def placeholder (n : Nat) : Text := "__".toList ++ (number n ++ "__".toList)

theorem placeholders_eq : placeholders = (List.range 16).map fun n => (placeholder n, abbr n) := by decide

theorem abbr_ne_nil : ∀ n < 16, abbr n ≠ [] := by decide

theorem placeholder_ne_nil (n : Nat) : placeholder n ≠ [] := by simp [placeholder]

theorem abbr_getLast : ∀ i < 16, (abbr i).getLast? = some '.' := by decide

theorem abbr_chars : ∀ i < 16, (abbr i).all (fun c => c.isAlpha || c = '.') = true := by decide

theorem number_getLast : ∀ n < 16, (number n).getLast?.any (fun c => !(c.isAlpha || c = '.')) = true := by
  decide

theorem number_chars : ∀ n < 16, (number n).all Char.isAlphanum = true := by decide

theorem notMem_abbr {c : Char} (hc : (c.isAlpha || c = '.') = false) {i : Nat} (hi : i < 16) : c ∉ abbr i := by
  intro hmem
  have := List.all_eq_true.mp (abbr_chars i hi) c hmem
  rw [hc] at this
  cases this

theorem notMem_number {c : Char} (hc : c.isAlphanum = false) {n : Nat} (hn : n < 16) : c ∉ number n := by
  intro hmem
  have := List.all_eq_true.mp (number_chars n hn) c hmem
  rw [hc] at this
  cases this

theorem placeholder_apart_abbr : ∀ i < 16, ∀ j < 16, Apart (placeholder i) (abbr j) := by
  intro i hi j hj
  have hlast : (placeholder i).getLast? = some '_' := by
    rw [placeholder, ← List.append_assoc, List.getLast?_append_of_ne_nil _ (by simp)]
    rfl
  have hdot : '.' ∉ placeholder i := by
    have := notMem_number (c := '.') (by decide) hi
    simp [placeholder, this]
  exact apart_of_getLast hlast (notMem_abbr (by decide) hj) (abbr_getLast j hj) hdot

theorem abbr_apart_placeholder : ∀ i < 16, ∀ j < 16, Apart (abbr i) (placeholder j) := fun i hi j hj =>
  (placeholder_apart_abbr j hj i hi).symm

/-- The only abbreviation that can begin inside of another one is the `e.g.` of `i.e.g.`. -/
theorem overlaps_abbr : ∀ i < 16, ∀ j < 16, overlaps (abbr i) (abbr j) =
    if i = j then [abbr j] else if i = 0 ∧ j = 1 then ["e.".toList] else [] := by decide

theorem mem_overlaps_abbr {i j : Nat} (hi : i < 16) (hj : j < 16) {s : Text} (h : s ∈ overlaps (abbr i) (abbr j)) :
    i = j ∧ s = abbr j ∨ i = 0 ∧ j = 1 ∧ s = "e.".toList := by
  rw [overlaps_abbr i hi j hj] at h
  split at h
  · rename_i hij
    exact .inl ⟨hij, List.mem_singleton.mp h⟩
  · split at h
    · rename_i hij
      exact .inr ⟨hij.1, hij.2, List.mem_singleton.mp h⟩
    · cases h

theorem eq_one_of_agree_ieg : ∀ i < 16, Agree "i.e.g.".toList (abbr i) → i = 1 := by decide

/-- Two placeholders share underscores at most. -/
theorem overlaps_placeholder : ∀ i < 16, ∀ j < 16, overlaps (placeholder i) (placeholder j) =
    (if i = j then [placeholder j] else []) ++ ["__".toList, "_".toList] := by decide

theorem mem_overlaps_placeholder {i j : Nat} (hi : i < 16) (hj : j < 16) (hij : i ≠ j) {s : Text}
    (h : s ∈ overlaps (placeholder i) (placeholder j)) : s = "__".toList ∨ s = "_".toList := by
  rw [overlaps_placeholder i hi j hj, if_neg hij] at h
  simpa using h

theorem agree_placeholder : ∀ i < 16, ∀ j < 16, Agree (placeholder i) (placeholder j) → i = j := by
  intro i hi j hj h
  by_contra hij
  have hmem : placeholder j ∈ overlaps (placeholder i) (placeholder j) :=
    mem_overlaps.mpr ⟨List.suffix_refl _, placeholder_ne_nil j, h.symm⟩
  have hshort := mem_overlaps_placeholder hi hj hij hmem
  simp [placeholder, number] at hshort

theorem visible_abbr_head : ∀ i < 16, ((abbr i).filter (!isSpace ·)).head?.any (· ≠ '_') = true := by decide

/-- In the middle of a placeholder no other one begins. -/
theorem noneBegins_number {n : Nat} (hn : n < 16) (i : Nat) : NoneBegins (placeholder i) ("_".toList ++ number n) := by
  intro s hs hne hagree
  rcases List.suffix_cons_iff.mp hs with rfl | hs
  · obtain ⟨-, h⟩ := agree_cons_iff.mp hagree
    exact absurd (agree_cons_iff.mp h).1 (by decide)
  · obtain ⟨c, s, rfl⟩ := List.exists_cons_of_ne_nil hne
    obtain ⟨rfl, -⟩ := agree_cons_iff.mp hagree
    exact notMem_number (by decide) hn (hs.subset List.mem_cons_self)

/-! ## The loops -/

/-- The first loop of `_split_into_sentences`. -/
def protectAll (text : Text) : Text := placeholders.foldl (fun t p => replaceAll p.2 p.1 t) text

/-- The loop over `placeholders.items()`. -/
def restoreAll (sent : Text) : Text := placeholders.foldl (fun t p => replaceAll p.1 p.2 t) sent

/-- The abbreviations that are protected. -/
def protectedMarks (text : Text) : List (Char ⊕ Nat) := marking abbr 16 text

theorem protectAll_eq_rounds (text : Text) : protectAll text = replaceRounds abbr placeholder 16 text := by
  have hloop := foldl_subst abbr placeholder text 16
  rw [List.foldl_map] at hloop
  rw [protectAll, placeholders_eq, List.foldl_map]
  simp only [replaceAll_eq_subst]
  exact hloop

theorem restoreAll_eq_rounds (sent : Text) : restoreAll sent = replaceRounds placeholder abbr 16 sent := by
  rw [restoreAll, placeholders_eq]
  simp only [replaceAll_eq_subst]
  exact foldl_subst placeholder abbr sent 16

/-- What is split is the text with its marks shown as placeholders. -/
theorem protectAll_eq (text : Text) : protectAll text = display placeholder (protectedMarks text) := by
  rw [protectAll_eq_rounds, replaceRounds_eq abbr_ne_nil abbr_apart_placeholder text (Nat.le_refl 16), protectedMarks]

theorem restoreAll_eq (sent : Text) : restoreAll sent = display abbr (marking placeholder 16 sent) := by
  rw [restoreAll_eq_rounds,
    replaceRounds_eq (fun i _ => placeholder_ne_nil i) placeholder_apart_abbr sent (Nat.le_refl 16)]

/-- A text with marks for abbreviations that the rounds put back. -/
structure Protects (ms : List (Char ⊕ Nat)) : Prop where
  lt : ∀ i, .inr i ∈ ms → i < 16
  noStray : ∀ n < 16, ¬ StrayMatch abbr n ms

theorem lt_of_mem_protectedMarks {text : Text} : ∀ i, .inr i ∈ protectedMarks text → i < 16 := fun _ h =>
  mark_lt abbr_ne_nil (Nat.le_refl 16) h

theorem display_protectedMarks (text : Text) : display abbr (protectedMarks text) = text :=
  display_marking abbr_ne_nil text (Nat.le_refl 16)

theorem protects_protectedMarks (text : Text) : Protects (protectedMarks text) := by
  refine ⟨lt_of_mem_protectedMarks, ?_⟩
  rw [← marking_display_iff abbr_ne_nil lt_of_mem_protectedMarks, display_protectedMarks, protectedMarks]

/-! ## What is restored -/

/-- The characters that are no white space. -/
def visible (t : Text) : Text := t.filter (!isSpace ·)

/-- **A text is restored, up to white space, exactly when the placeholders that are read are those of its marks.** -/
theorem visible_restore_iff (text : Text) :
    visible (restoreAll (protectAll text)) = visible text ↔
      ∀ n < 16, ¬ StrayMatch placeholder n (protectedMarks text) := by
  have hne : ∀ n < 16, placeholder n ≠ [] := fun n _ => placeholder_ne_nil n
  rw [← marking_display_iff hne lt_of_mem_protectedMarks, restoreAll_eq, protectAll_eq]
  have hdisplay := display_protectedMarks text
  constructor
  · intro h
    have hhead : ∀ i < 16, ∃ s, placeholder i = '_' :: s := fun i _ => ⟨_, rfl⟩
    refine display_unique (k := (!isSpace ·)) (by decide) agree_placeholder hhead visible_abbr_head
      (fun i hi => ?_) lt_of_mem_protectedMarks ?_ ?_
    · exact mark_lt hne (Nat.le_refl 16) hi
    · exact display_marking hne _ (Nat.le_refl 16)
    · rw [hdisplay]
      exact h
  · intro h
    rw [h, hdisplay]

/-! ## Where a placeholder is read -/

/-- In front of `x`, which is followed by `ABBRn`, a later abbreviation is protected, or `x` has both underscores. -/
def MarkBefore (n : Nat) (l : List (Char ⊕ Nat)) (x : Text) : Prop :=
  x = "__".toList ∨ (x = "_".toList ∨ x = []) ∧ ∃ a, n < a ∧ ∃ l', l = l' ++ [.inr a]

/-- Behind `y`, which follows `ABBRn`, an abbreviation is not restored yet, or `y` has both underscores. -/
def MarkBehind (n : Nat) (y : Text) (r : List (Char ⊕ Nat)) : Prop :=
  y = "__".toList ∨ (y = "_".toList ∨ y = []) ∧ ∃ b, n ≤ b ∧ ∃ r', r = .inr b :: r'

variable {n : Nat} {ms m l r : List (Char ⊕ Nat)} {x y : Text}

/-- The underscores that end a placeholder are read. -/
theorem exists_markBehind {z : List (Char ⊕ Nat)} (h : showFrom placeholder n m = literal "__".toList ++ z) :
    ∃ y r, m = literal y ++ r ∧ MarkBehind n y r := by
  rcases showFrom_eq_inl_cons placeholder h with ⟨b, r, hb, rfl⟩ | ⟨m, rfl, hm⟩
  · exact ⟨[], .inr b :: r, rfl, .inr ⟨.inr rfl, b, hb, r, rfl⟩⟩
  · rcases showFrom_eq_inl_cons placeholder hm with ⟨b, r, hb, rfl⟩ | ⟨r, rfl, -⟩
    · exact ⟨"_".toList, .inr b :: r, rfl, .inr ⟨.inl rfl, b, hb, r, rfl⟩⟩
    · exact ⟨"__".toList, r, rfl, .inl rfl⟩

theorem literal_prefix_of_markBehind (h : MarkBehind n y r) :
    literal "__".toList <+: literal y ++ showFrom placeholder n r := by
  rcases h with rfl | ⟨hy, b, hb, r', rfl⟩
  · exact List.prefix_append _ _
  · rw [showFrom_cons, showFrom_inr_of_le placeholder hb, placeholder]
    rcases hy with rfl | rfl
    · exact ⟨literal ("_".toList ++ (number b ++ "__".toList)) ++ showFrom placeholder n r', by simp [literal]⟩
    · exact ⟨literal (number b ++ "__".toList) ++ showFrom placeholder n r', by simp [literal]⟩

/-- Around `ABBRn` a placeholder is read. -/
theorem literal_placeholder_prefix {s : Text} (hs : s ++ x = "__".toList) (h : MarkBehind n y r) :
    literal (placeholder n) <+: literal s ++ showFrom placeholder n (literal (x ++ (number n ++ y)) ++ r) := by
  have heq : literal s ++ showFrom placeholder n (literal (x ++ (number n ++ y)) ++ r) =
      literal ("__".toList ++ number n) ++ (literal y ++ showFrom placeholder n r) := by
    rw [showFrom_append, showFrom_literal, ← hs]
    simp [literal]
  have hplaceholder : (literal (placeholder n) : List (Char ⊕ Nat)) =
      literal ("__".toList ++ number n) ++ literal "__".toList := by
    rw [placeholder, ← literal_append, List.append_assoc]
  rw [heq, hplaceholder, List.prefix_append_right_inj]
  exact literal_prefix_of_markBehind h

theorem rest_of_placeholder {s : Text} {z w : List (Char ⊕ Nat)} (hs : s ++ x = "__".toList)
    (h : literal (placeholder n) ++ z = literal s ++ w) : literal (x ++ (number n ++ "__".toList)) ++ z = w := by
  have hplaceholder : placeholder n = s ++ (x ++ (number n ++ "__".toList)) := by
    rw [← List.append_assoc, hs, placeholder]
  rw [hplaceholder, literal_append, List.append_assoc] at h
  exact List.append_cancel_left h

/-- What remains of a placeholder that is read is in the text but for the underscores at its end. -/
theorem exists_number_markBehind (hlt : ∀ i, .inr i ∈ m → i < 16) (hn : n < 16) (hx : x = "_".toList ∨ x = [])
    {z : List (Char ⊕ Nat)} (h : literal (x ++ (number n ++ "__".toList)) ++ z = showFrom placeholder n m) :
    ∃ y r, m = literal (x ++ (number n ++ y)) ++ r ∧ MarkBehind n y r := by
  have hnone : ∀ i, .inr i ∈ m → NoneBegins (placeholder i) (x ++ number n) := by
    intro i hi
    refine (noneBegins_number hn i).of_suffix ?_
    rcases hx with rfl | rfl
    · exact List.suffix_refl _
    · exact List.suffix_append "_".toList (number n)
  have hread : showFrom placeholder n m = literal (x ++ number n) ++ (literal "__".toList ++ z) := by
    rw [← h, ← List.append_assoc x, literal_append, List.append_assoc]
  obtain ⟨m, rfl, hm⟩ := exists_literal_showFrom placeholder hnone hread
  obtain ⟨y, r, rfl, hy⟩ := exists_markBehind hm
  exact ⟨y, r, by simp [literal], hy⟩

theorem eq_of_suffix_singleton {α : Type} {c : α} {s : List α} (h : s <:+ [c]) (hne : s ≠ []) : s = [c] :=
  (List.suffix_cons_iff.mp h).resolve_right fun h => hne (List.suffix_nil.mp h)

/-- **Where a placeholder is read that is no mark, the text has `ABBRn` between its underscores.** -/
theorem strayMatch_placeholder_iff (hlt : ∀ i, .inr i ∈ ms → i < 16) (hn : n < 16) :
    StrayMatch placeholder n ms ↔
      ∃ l x y r, ms = l ++ (literal (x ++ (number n ++ y)) ++ r) ∧ MarkBefore n l x ∧ MarkBehind n y r := by
  constructor
  · rintro ⟨l, tok, m, rfl, htok, s, hne, hs, z, hz⟩
    have hm : ∀ i, .inr i ∈ m → i < 16 := fun i hi => hlt i (by simp [hi])
    cases tok with
    | inl c =>
      obtain rfl := eq_of_suffix_singleton hs hne
      obtain rfl : '_' = c := Sum.inl.inj (List.cons_eq_cons.mp hz).1
      obtain ⟨y, r, rfl, hy⟩ := exists_number_markBehind hm hn (.inl rfl) (rest_of_placeholder (s := ['_']) rfl hz)
      exact ⟨l, "__".toList, y, r, rfl, .inl rfl, hy⟩
    | inr a =>
      have ha : a < 16 := hlt a (by simp)
      by_cases hlt' : a < n
      · rw [showFrom_inr_of_lt placeholder hlt'] at hs
        obtain rfl := eq_of_suffix_singleton hs hne
        cases hz
      · rw [showFrom_inr_of_le placeholder (by omega), literal, List.suffix_map_iff] at hs
        obtain ⟨s, hs, rfl⟩ := hs
        have hmem : s ∈ overlaps (placeholder n) (placeholder a) :=
          mem_overlaps.mpr ⟨hs, by simpa using hne, (agree_of_literal hz).symm⟩
        have han : n ≠ a := fun h => htok (congrArg Sum.inr h.symm)
        obtain ⟨x, hx, hsx⟩ : ∃ x, (x = "_".toList ∨ x = []) ∧ s ++ x = "__".toList := by
          rcases mem_overlaps_placeholder hn ha han hmem with rfl | rfl
          · exact ⟨[], .inr rfl, rfl⟩
          · exact ⟨"_".toList, .inl rfl, rfl⟩
        obtain ⟨y, r, rfl, hy⟩ := exists_number_markBehind hm hn hx (rest_of_placeholder hsx hz)
        exact ⟨l ++ [.inr a], x, y, r, by simp, .inr ⟨hx, a, by omega, l, rfl⟩, hy⟩
  · rintro ⟨l, x, y, r, rfl, rfl | ⟨hx, a, ha, l, rfl⟩, hy⟩
    · refine ⟨l, .inl '_', literal ("_".toList ++ (number n ++ y)) ++ r, rfl, Sum.inl_ne_inr, ?_⟩
      exact ⟨literal "_".toList, List.cons_ne_nil _ _, List.suffix_refl _, literal_placeholder_prefix rfl hy⟩
    · refine ⟨l, .inr a, literal (x ++ (number n ++ y)) ++ r, by simp, fun h => ?_, ?_⟩
      · have := Sum.inr.inj h
        omega
      · rw [showFrom_inr_of_le placeholder (by omega)]
        rcases hx with rfl | rfl
        · refine ⟨literal "_".toList, List.cons_ne_nil _ _, ?_, literal_placeholder_prefix rfl hy⟩
          exact ⟨literal ("__".toList ++ (number a ++ "_".toList)), by simp [placeholder, literal]⟩
        · refine ⟨literal "__".toList, List.cons_ne_nil _ _, ?_, literal_placeholder_prefix rfl hy⟩
          exact ⟨literal ("__".toList ++ number a), by simp [placeholder, literal]⟩

/-! ## The marks of a text -/

/-- An abbreviation in the text is protected, unless it is the `i.e.` of `i.e.g.`. -/
theorem Protects.read (hms : Protects (l ++ r)) {b : Nat} (hb : b < 16) (habbr : abbr b <+: display abbr r)
    (hieg : ¬ "i.e.g.".toList <+: display abbr r) : ∃ r', r = .inr b :: r' := by
  obtain ⟨y, hy⟩ := habbr
  rcases literal_or_mark hy.symm with ⟨m, rfl, -⟩ | ⟨w, s, i, m, hw, hs, rfl, hagree⟩
  · obtain ⟨c, w, hc⟩ := List.exists_cons_of_ne_nil (abbr_ne_nil b hb)
    refine absurd ?_ (hms.noStray b hb)
    refine ⟨l, .inl c, literal w ++ m, by rw [hc]; rfl, Sum.inl_ne_inr, [.inl c], List.cons_ne_nil _ _,
      List.suffix_refl _, ?_⟩
    rw [showFrom_append, showFrom_literal, hc]
    exact List.prefix_append _ _
  · have hi : i < 16 := hms.lt i (by simp)
    have hmem : s ∈ overlaps (abbr i) (abbr b) := mem_overlaps.mpr ⟨hw ▸ List.suffix_append w s, hs, hagree⟩
    rcases mem_overlaps_abbr hi hb hmem with ⟨rfl, rfl⟩ | ⟨rfl, rfl, rfl⟩
    · obtain rfl : w = [] := List.self_eq_append_left.mp hw
      exact ⟨m, rfl⟩
    · obtain rfl : w = "i.".toList :=
        List.append_cancel_right (show w ++ "e.".toList = "i.".toList ++ "e.".toList from hw.symm)
      exact absurd ⟨display abbr m, rfl⟩ hieg

/-- The `i.e.` of `i.e.g.` is not protected. -/
theorem Protects.not_ieg {b : Nat} (hms : Protects (l ++ .inr b :: r)) :
    ¬ "i.e.g.".toList <+: display abbr (.inr b :: r) := by
  rintro ⟨y, hy⟩
  have hb : b < 16 := hms.lt b (by simp)
  rw [display_inr] at hy
  obtain rfl := eq_one_of_agree_ieg b hb (agree_of_append_eq hy)
  have hrest : display abbr r = "g.".toList ++ y :=
    (List.append_cancel_left (show "i.e.".toList ++ ("g.".toList ++ y) = "i.e.".toList ++ display abbr r from hy)).symm
  refine hms.noStray 0 (by omega) ⟨l, .inr 1, r, rfl, by simp, literal "e.".toList, List.cons_ne_nil _ _, ?_, ?_⟩
  · exact ⟨literal "i.".toList, rfl⟩
  · rw [showFrom_zero, hrest]
    exact ⟨literal y, rfl⟩

/-- An abbreviation at the end of a part of the text is protected, unless it is the `e.g.` or belongs to an `i.e.g.`. -/
theorem Protects.read_end (hms : Protects (l ++ r)) {a : Nat} (ha : a < 16) (ha' : a ≠ 0)
    (habbr : abbr a <:+ display abbr l) (hieg : ¬ "i.e.g.".toList <+: abbr a ++ display abbr r) :
    ∃ l', l = l' ++ [.inr a] := by
  obtain ⟨u, hu⟩ := habbr
  rcases cut_display hu.symm with ⟨l', m, rfl, -, hm⟩ | ⟨l', i, m, s, s', rfl, hi, hs, hs', hv⟩
  · rw [List.append_assoc] at hms
    have hdisplay : display abbr (m ++ r) = abbr a ++ display abbr r := by rw [display_append, hm]
    obtain ⟨r', hr'⟩ := hms.read ha ⟨display abbr r, hdisplay.symm⟩ (hdisplay ▸ hieg)
    cases m with
    | nil => exact absurd hm.symm (abbr_ne_nil a ha)
    | cons tok m =>
      obtain ⟨rfl, rfl⟩ := List.cons_eq_cons.mp hr'
      rw [display_inr, List.append_right_eq_self] at hm
      have hlt : ∀ i, .inr i ∈ m → i < 16 := fun i hi => hms.lt i (by simp [hi])
      exact ⟨l', by rw [display_eq_nil abbr_ne_nil hlt hm]⟩
  · have hi16 : i < 16 := hms.lt i (by simp)
    have hmem : s' ∈ overlaps (abbr a) (abbr i) :=
      mem_overlaps.mpr ⟨hi ▸ List.suffix_append s s', hs', (agree_of_append_eq (by rw [← hv, List.append_nil])).symm⟩
    rcases mem_overlaps_abbr ha hi16 hmem with ⟨-, rfl⟩ | ⟨h, -⟩
    · exact absurd (List.self_eq_append_left.mp hi) hs
    · exact absurd h ha'

/-! ## Texts that form a placeholder -/

/-- In front of `x`, which is followed by `ABBRn`, a later abbreviation ends, or `x` has both underscores. -/
def OpenBefore (n : Nat) (u x : Text) : Prop :=
  x = "__".toList ∨ (x = "_".toList ∨ x = []) ∧ ∃ a, n < a ∧ a < 16 ∧ abbr a <:+ u

/-- Behind `y`, which follows `ABBRn`, the same abbreviation or a later one begins, other than the `i.e.` of `i.e.g.`,
or `y` has both underscores. -/
def OpenBehind (n : Nat) (y v : Text) : Prop :=
  y = "__".toList ∨ (y = "_".toList ∨ y = []) ∧ ∃ b, n ≤ b ∧ b < 16 ∧ abbr b <+: v ∧ ¬ "i.e.g.".toList <+: v

/-- The text holds an `ABBRn` that is made a placeholder, by its own underscores or by the placeholders next to it. -/
def FormsPlaceholder (text : Text) : Prop :=
  ∃ n < 16, ∃ u x y v, text = u ++ (x ++ (number n ++ (y ++ v))) ∧ OpenBefore n u x ∧ OpenBehind n y v

section

variable {u v : Text}

/-- No abbreviation of the text reaches into the characters that make the placeholder. -/
theorem apart_of_open (hn : n < 16) (hx : OpenBefore n u x) (hy : OpenBehind n y v) {i : Nat} (hi : i < 16) :
    Apart (x ++ (number n ++ y)) (abbr i) := by
  have hdot : '.' ∉ x ++ (number n ++ y) := by
    have := notMem_number (c := '.') (by decide) hn
    rcases hx with rfl | ⟨rfl | rfl, -⟩ <;> rcases hy with rfl | ⟨rfl | rfl, -⟩ <;> simp [this]
  have hne : number n ≠ [] := by simp [number]
  obtain ⟨c, hc, hlast⟩ : ∃ c, (c.isAlpha || c = '.') = false ∧ (number n ++ y).getLast? = some c := by
    rcases hy with rfl | ⟨rfl | rfl, -⟩
    · exact ⟨'_', by decide, List.getLast?_append_of_ne_nil _ (by simp)⟩
    · exact ⟨'_', by decide, List.getLast?_append_of_ne_nil _ (by simp)⟩
    · have hany := number_getLast n hn
      rw [List.append_nil]
      cases hlast : (number n).getLast? with
      | none => exact absurd (List.getLast?_eq_none_iff.mp hlast) hne
      | some c =>
        rw [hlast, Option.any_some, Bool.not_eq_true'] at hany
        exact ⟨c, hany, rfl⟩
  rw [← List.getLast?_append_of_ne_nil x (by simp [hne])] at hlast
  exact apart_of_getLast hlast (notMem_abbr hc hi) (abbr_getLast i hi) hdot

/-- No `i.e.g.` reaches from an abbreviation into an `ABBRn` behind it. -/
theorem not_ieg_of_open (hx : OpenBefore n u x) {a : Nat} (ha : a < 16) (t : Text) :
    ¬ "i.e.g.".toList <+: abbr a ++ (x ++ (number n ++ t)) := by
  rintro ⟨z, hz⟩
  obtain rfl := eq_one_of_agree_ieg a ha (agree_of_append_eq hz)
  have hrest := List.append_cancel_left (show "i.e.".toList ++ ("g.".toList ++ z) = "i.e.".toList ++ _ from hz)
  rcases hx with rfl | ⟨rfl | rfl, -⟩
  · cases hrest
  · cases hrest
  · cases hrest

theorem markBefore_iff (hms : Protects (l ++ (literal (x ++ (number n ++ y)) ++ r))) (hn : n < 16) :
    MarkBefore n l x ↔ OpenBefore n (display abbr l) x := by
  constructor
  · rintro (rfl | ⟨hx, a, ha, l, rfl⟩)
    · exact .inl rfl
    · refine .inr ⟨hx, a, ha, hms.lt a (by simp), ?_⟩
      rw [display_append, display_inr, display_nil, List.append_nil]
      exact List.suffix_append _ _
  · intro h
    have hopen := h
    rcases h with rfl | ⟨hx, a, ha, ha', habbr⟩
    · exact .inl rfl
    · refine .inr ⟨hx, a, ha, hms.read_end ha' (by omega) habbr ?_⟩
      have hdisplay : display abbr (literal (x ++ (number n ++ y)) ++ r) =
          x ++ (number n ++ (y ++ display abbr r)) := by
        rw [display_append, display_literal]
        simp
      rw [hdisplay]
      exact not_ieg_of_open hopen ha' _

theorem markBehind_iff (hms : Protects (l ++ r)) : MarkBehind n y r ↔ OpenBehind n y (display abbr r) := by
  constructor
  · rintro (rfl | ⟨hy, b, hb, r, rfl⟩)
    · exact .inl rfl
    · exact .inr ⟨hy, b, hb, hms.lt b (by simp), List.prefix_append _ _, hms.not_ieg⟩
  · rintro (rfl | ⟨hy, b, hb, hb', habbr, hieg⟩)
    · exact .inl rfl
    · exact .inr ⟨hy, b, hb, hms.read hb' habbr hieg⟩

end

/-- **A placeholder that is no mark is read exactly in the texts that form one.** -/
theorem strayMatch_iff_formsPlaceholder (text : Text) :
    (∃ n < 16, StrayMatch placeholder n (protectedMarks text)) ↔ FormsPlaceholder text := by
  have hms := protects_protectedMarks text
  have hdisplay := display_protectedMarks text
  refine exists_congr fun n => and_congr_right fun hn => ?_
  rw [strayMatch_placeholder_iff hms.lt hn]
  constructor
  · rintro ⟨l, x, y, r, heq, hx, hy⟩
    rw [heq] at hms hdisplay
    have hms' : Protects ((l ++ literal (x ++ (number n ++ y))) ++ r) := by rwa [List.append_assoc]
    refine ⟨display abbr l, x, y, display abbr r, ?_, (markBefore_iff hms hn).mp hx, (markBehind_iff hms').mp hy⟩
    rw [← hdisplay, display_append, display_append, display_literal]
    simp
  · rintro ⟨u, x, y, v, rfl, hx, hy⟩
    have hapart : ∀ i, .inr i ∈ protectedMarks (u ++ (x ++ (number n ++ (y ++ v)))) →
        Apart (x ++ (number n ++ y)) (abbr i) := fun i hi => apart_of_open hn hx hy (hms.lt i hi)
    have hsplit : display abbr (protectedMarks (u ++ (x ++ (number n ++ (y ++ v))))) =
        u ++ ((x ++ (number n ++ y)) ++ v) := by
      rw [hdisplay]
      simp
    obtain ⟨l, r, heq, rfl, rfl⟩ := exists_literal_between hapart hsplit
    rw [heq] at hms ⊢
    have hms' : Protects ((l ++ literal (x ++ (number n ++ y))) ++ r) := by rwa [List.append_assoc]
    exact ⟨l, x, y, r, rfl, (markBefore_iff hms hn).mpr hx, (markBehind_iff hms').mpr hy⟩

end ComplianceLoop
