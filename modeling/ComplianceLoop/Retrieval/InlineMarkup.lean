import ComplianceLoop.Retrieval.HtmlText

/-!
# Inline markup inside a sentence (`retrieval/corpus/html_extractor.py`)

Wrapping a word in `<b>` or `<a>` splits a text node at white space. Every node becomes lines of its own, and the
cleaning leaves out lines of up to three characters that do not start with a letter. So the words are the same exactly
when the two parts of the line that is split are kept on their own (`inlineMarkup_iff`); the `50%` of
`The limit is <b>50%</b> of income.` is lost.
-/

set_option autoImplicit false

namespace ComplianceLoop

open PyLib

/-! ## Words and their lengths -/

theorem ne_nil_of_mem_words {t w : Text} (h : w ∈ words t) : w ≠ [] := of_decide_eq_true (List.mem_filter.mp h).2

theorem length_words_le_flatten (t : Text) : (words t).length ≤ (words t).flatten.length := by
  have hall : ∀ ws : List Text, (∀ w ∈ ws, w ≠ []) → ws.length ≤ ws.flatten.length := by
    intro ws
    induction ws with
    | nil => exact fun _ => Nat.le_refl _
    | cons w ws ih =>
      intro h
      obtain ⟨hw, hws⟩ := List.forall_mem_cons.mp h
      have := List.length_pos_iff.mpr hw
      have := ih hws
      rw [List.flatten_cons, List.length_append, List.length_cons]
      omega
  exact hall _ fun w hw => ne_nil_of_mem_words hw

theorem flatten_words_append (s t : Text) : (words (s ++ t)).flatten = (words s).flatten ++ (words t).flatten := by
  rw [flatten_words, flatten_words, flatten_words, List.filter_append]

theorem flatten_words_ne_nil {t : Text} (h : words t ≠ []) : (words t).flatten ≠ [] := by
  have := length_words_le_flatten t
  have := List.length_pos_iff.mpr h
  exact List.length_pos_iff.mp (by omega)

/-! ## Keeping a line -/

variable {isAlpha : Char → Bool}

/-- The last step of the cleaning keeps the line. -/
def kept (isAlpha : Char → Bool) (line : Text) : Bool := keepLine isAlpha (cleanLine line)

theorem lineWords_eq (line : Text) :
    lineWords isAlpha line = if kept isAlpha line then words (cleanChars line) else [] := by
  rw [lineWords, words_cleanLine, kept]

theorem kept_eq_true_iff {line : Text} : kept isAlpha line = true ↔
    3 < (strip (cleanLine line)).length ∨ (words (cleanChars line)).flatten.head?.any isAlpha = true := by
  rw [kept, keepLine, head?_strip, words_cleanLine, Bool.or_eq_true, decide_eq_true_iff]

/-- A part of a line is not longer than the line. -/
theorem length_strip_cleanLine_le {a b : Text} (h : cleanChars a <:+: cleanChars b) :
    (strip (cleanLine a)).length ≤ (strip (cleanLine b)).length := by
  obtain ⟨-, -, -, -, -, hhead, hlast⟩ := exists_strip (cleanChars a)
  rw [strip_cleanLine, strip_cleanLine, collapseSpaces_eq, collapseSpaces_eq]
  exact (mapRuns_infix_of_ends (strip_infix_strip h) (fun c hc => isBlankChar_of_not_isSpace (hhead c hc))
    fun c hc => isBlankChar_of_not_isSpace (hlast c hc)).length_le

theorem length_left_le (x y : Text) : (strip (cleanLine x)).length ≤ (strip (cleanLine (x ++ y))).length :=
  length_strip_cleanLine_le (cleanChars_append x y ▸ (List.prefix_append _ _).isInfix)

theorem length_right_le (x y : Text) : (strip (cleanLine y)).length ≤ (strip (cleanLine (x ++ y))).length :=
  length_strip_cleanLine_le (cleanChars_append x y ▸ (List.suffix_append _ _).isInfix)

/-- A line that starts with a kept one is kept. -/
theorem kept_append {x : Text} (hx : kept isAlpha x = true) (hne : words (cleanChars x) ≠ []) (y : Text) :
    kept isAlpha (x ++ y) = true := by
  rw [kept_eq_true_iff] at hx ⊢
  rcases hx with hx | hx
  · exact .inl (Nat.lt_of_lt_of_le hx (length_left_le x y))
  · right
    rwa [cleanChars_append, flatten_words_append, List.head?_append_of_ne_nil _ (flatten_words_ne_nil hne)]

theorem not_kept_left {x y : Text} (h : kept isAlpha (x ++ y) = false) (hne : words (cleanChars x) ≠ []) :
    kept isAlpha x = false := by
  by_contra hx
  rw [kept_append (by simpa using hx) hne] at h
  cases h

theorem length_le_of_not_kept {line : Text} (h : kept isAlpha line = false) : (strip (cleanLine line)).length ≤ 3 := by
  by_contra hlen
  rw [kept_eq_true_iff.mpr (.inl (by omega))] at h
  cases h

/-! ## A line in two parts -/

/-- The two parts of a line that is split have the words of the line. -/
def PartsKept (isAlpha : Char → Bool) (x y : Text) : Prop :=
  words (cleanChars x) = [] ∨ words (cleanChars y) = [] ∨
    (kept isAlpha x = true ∧ kept isAlpha y = true ∧ MeetAtSpace (cleanChars x) (cleanChars y)) ∨
    (kept isAlpha (x ++ y) = false ∧ kept isAlpha x = false ∧ kept isAlpha y = false)

/-- Without white space between them the parts have a word more. -/
theorem meetAtSpace_of_words {s t : Text} (hs : words s ≠ []) (ht : words t ≠ [])
    (h : words (s ++ t) = words s ++ words t) : MeetAtSpace s t := by
  by_contra hm
  have hs : s ≠ [] := by
    rintro rfl
    exact hs words_nil
  have ht : t ≠ [] := by
    rintro rfl
    exact ht words_nil
  have hc := List.getLast?_eq_some_getLast hs
  have hd := List.head?_eq_some_head ht
  have hlen := length_words_append hd (by simpa using fun h => hm (.inr ⟨_, hd, h⟩)) hc
    (by simpa using fun h => hm (.inl ⟨_, hc, h⟩))
  rw [h, List.length_append] at hlen
  omega

theorem lineWords_append_iff (x y : Text) :
    lineWords isAlpha (x ++ y) = lineWords isAlpha x ++ lineWords isAlpha y ↔ PartsKept isAlpha x y := by
  by_cases hx : words (cleanChars x) = []
  · simp [PartsKept, hx, lineWords_spaces_append (words_eq_nil_iff.mp hx), lineWords_eq x]
  by_cases hy : words (cleanChars y) = []
  · simp [PartsKept, hy, lineWords_append_spaces (words_eq_nil_iff.mp hy), lineWords_eq y]
  rw [PartsKept, or_iff_right hx, or_iff_right hy, lineWords_eq, lineWords_eq, lineWords_eq, cleanChars_append]
  cases hk : kept isAlpha (x ++ y) with
  | false =>
    have hkx := not_kept_left hk hx
    simp [hkx, hy]
  | true =>
    -- a part that is left out makes the text shorter
    have hlen := congrArg List.length (flatten_words_append (cleanChars x) (cleanChars y))
    have hpx := List.length_pos_iff.mpr (flatten_words_ne_nil hx)
    have hpy := List.length_pos_iff.mpr (flatten_words_ne_nil hy)
    rw [List.length_append] at hlen
    have hshort : ∀ ws : List Text, ws.flatten.length < (words (cleanChars x ++ cleanChars y)).flatten.length →
        words (cleanChars x ++ cleanChars y) ≠ ws := by
      rintro ws h rfl
      exact Nat.lt_irrefl _ h
    cases hkx : kept isAlpha x with
    | false =>
      have := hshort (if kept isAlpha y then words (cleanChars y) else []) <| by
        split
        · omega
        · rw [List.flatten_nil, List.length_nil]
          omega
      simpa using this
    | true =>
      cases hky : kept isAlpha y with
      | false =>
        have := hshort (words (cleanChars x)) (by omega)
        simpa using this
      | true =>
        have : words (cleanChars x ++ cleanChars y) = words (cleanChars x) ++ words (cleanChars y) ↔
            MeetAtSpace (cleanChars x) (cleanChars y) := ⟨meetAtSpace_of_words hx hy, words_append_of_meet⟩
        simpa using this

/-! ## White space that the cleaning keeps -/

/-- The words that do not start with a letter. -/
def nonAlpha (isAlpha : Char → Bool) (ws : List Text) : Nat := ws.countP fun w => !w.head?.any isAlpha

/-- Words of the first kind get fewer, or stay as many and the text gets longer. -/
def Moves (isAlpha : Char → Bool) (ws ws' : List Text) : Prop :=
  nonAlpha isAlpha ws' < nonAlpha isAlpha ws ∨
    (nonAlpha isAlpha ws' = nonAlpha isAlpha ws ∧ ws.flatten.length < ws'.flatten.length)

theorem Moves.ne {a b : List Text} (h : Moves isAlpha a b) : a ≠ b := by
  rintro rfl
  rcases h with h | ⟨-, h⟩
  · exact Nat.lt_irrefl _ h
  · exact Nat.lt_irrefl _ h

theorem Moves.trans {a b c : List Text} (h : Moves isAlpha a b) (h' : Moves isAlpha b c) : Moves isAlpha a c := by
  unfold Moves at *
  omega

/-- What stands around does not matter. -/
theorem Moves.context {a b : List Text} (h : Moves isAlpha a b) (l r : List Text) :
    Moves isAlpha (l ++ (a ++ r)) (l ++ (b ++ r)) := by
  simp only [Moves, nonAlpha, List.countP_append, List.flatten_append, List.length_append] at h ⊢
  omega

theorem nonAlpha_append (ws ws' : List Text) :
    nonAlpha isAlpha (ws ++ ws') = nonAlpha isAlpha ws + nonAlpha isAlpha ws' := List.countP_append

theorem lineWords_of_kept {line : Text} (h : kept isAlpha line = true) :
    lineWords isAlpha line = words (cleanChars line) := by rw [lineWords_eq, if_pos h]

theorem lineWords_of_not_kept {line : Text} (h : kept isAlpha line = false) : lineWords isAlpha line = [] := by
  rw [lineWords_eq, h, if_neg Bool.false_ne_true]

theorem nonAlpha_lineWords_le (isAlpha : Char → Bool) (line : Text) :
    nonAlpha isAlpha (lineWords isAlpha line) ≤ nonAlpha isAlpha (words (cleanChars line)) := by
  rw [lineWords_eq]
  split
  · exact Nat.le_refl _
  · exact Nat.zero_le _

/-- A line that is left out starts with such a word. -/
theorem nonAlpha_lineWords_lt {line : Text} (hk : kept isAlpha line = false) (hne : words (cleanChars line) ≠ []) :
    nonAlpha isAlpha (lineWords isAlpha line) < nonAlpha isAlpha (words (cleanChars line)) := by
  have hhead : (words (cleanChars line)).flatten.head?.any isAlpha = false := by
    by_contra h
    rw [kept_eq_true_iff.mpr (.inr (by simpa using h))] at hk
    cases hk
  obtain ⟨w, ws, hw⟩ := List.exists_cons_of_ne_nil hne
  have hwne : w ≠ [] := ne_nil_of_mem_words (hw ▸ List.mem_cons_self)
  rw [hw, List.flatten_cons, List.head?_append_of_ne_nil _ hwne] at hhead
  rw [lineWords_of_not_kept hk, hw, nonAlpha, nonAlpha, List.countP_cons_of_pos (by rw [hhead]; rfl)]
  exact Nat.succ_pos _

/-- Behind white space there is one character at most in a line that is left out. -/
theorem words_right_of_not_kept {x y : Text} (hm : MeetAtSpace (cleanChars x) (cleanChars y))
    (hx : words (cleanChars x) ≠ []) (hy : words (cleanChars y) ≠ []) (hk : kept isAlpha (x ++ y) = false) :
    ∃ w, words (cleanChars y) = [w] := by
  have hlen := length_le_of_not_kept hk
  have hcount := length_words_le (strip (cleanLine (x ++ y)))
  rw [words_strip, words_cleanLine, cleanChars_append, words_append_of_meet hm, List.flatten_append, List.length_append,
    List.length_append] at hcount
  have := length_words_le_flatten (cleanChars x)
  have := length_words_le_flatten (cleanChars y)
  have := List.length_pos_iff.mpr hx
  have := List.length_pos_iff.mpr hy
  exact List.length_eq_one_iff.mp (by omega)

/-- **A line that is split at white space keeps its words, loses some that do not start with a letter, or brings a
letter back.** -/
theorem lineWords_moves {x y : Text} (hm : MeetAtSpace (cleanChars x) (cleanChars y)) (h : ¬ PartsKept isAlpha x y) :
    Moves isAlpha (lineWords isAlpha (x ++ y)) (lineWords isAlpha x ++ lineWords isAlpha y) := by
  simp only [PartsKept, not_or] at h
  obtain ⟨hx, hy, hboth, hnone⟩ := h
  cases hk : kept isAlpha (x ++ y) with
  | true =>
    left
    rw [lineWords_of_kept hk, cleanChars_append, words_append_of_meet hm, nonAlpha_append, nonAlpha_append]
    have hlx := nonAlpha_lineWords_le isAlpha x
    have hly := nonAlpha_lineWords_le isAlpha y
    cases hkx : kept isAlpha x with
    | false =>
      have := nonAlpha_lineWords_lt hkx hx
      omega
    | true =>
      have := nonAlpha_lineWords_lt (by simpa [hkx, hm] using hboth) hy
      omega
  | false =>
    have hkx := not_kept_left hk hx
    have hky : kept isAlpha y = true := by simpa [hk, hkx] using hnone
    obtain ⟨w, hw⟩ := words_right_of_not_kept hm hx hy hk
    have hlen := Nat.le_trans (length_right_le x y) (length_le_of_not_kept hk)
    have halpha := (kept_eq_true_iff.mp hky).resolve_left (Nat.not_lt.mpr hlen)
    rw [hw, List.flatten_singleton] at halpha
    have hwne := List.length_pos_iff.mpr (flatten_words_ne_nil hy)
    rw [lineWords_of_not_kept hk, lineWords_of_not_kept hkx, lineWords_of_kept hky, List.nil_append, hw] at *
    exact .inr ⟨by simp [nonAlpha, halpha], hwne⟩

/-! ## A text node in two parts -/

/-- The line of the node that is split keeps its words. -/
def LineKept (isAlpha : Char → Bool) (u v : Text) : Prop := PartsKept isAlpha (lastLine u) (firstLine v)

/-- The node is split at white space. -/
def AtSpace (u v : Text) : Prop := ∃ c, (c ∈ u.getLast? ∨ c ∈ v.head?) ∧ isSpace c = true

/-- The node is split at white space other than a control character, which the cleaning would take out. -/
def AtKeptSpace (u v : Text) : Prop :=
  ∃ c, (c ∈ u.getLast? ∨ c ∈ v.head?) ∧ isSpace c = true ∧ isControl c = false

/-- Only the line that is split matters. -/
theorem exists_around (isAlpha : Char → Bool) (u v : Text) : ∃ ws ws',
    textWords isAlpha (u ++ v) = ws ++ (lineWords isAlpha (lastLine u ++ firstLine v) ++ ws') ∧
      textWords isAlpha u = ws ++ lineWords isAlpha (lastLine u) ∧
        textWords isAlpha v = lineWords isAlpha (firstLine v) ++ ws' := by
  obtain ⟨ws, hu⟩ := exists_before isAlpha u
  obtain ⟨ws', hv⟩ := exists_behind isAlpha v
  have hx := newline_notMem_lastLine u
  have hy := newline_notMem_firstLine v
  have hxy : '\n' ∉ lastLine u ++ firstLine v := by simpa using ⟨hx, hy⟩
  refine ⟨ws, ws', ?_, ?_, ?_⟩
  · rw [hu, hv, textWords_of_line isAlpha hxy]
  · rw [← textWords_of_line isAlpha hx]
    simpa using hu []
  · rw [← textWords_of_line isAlpha hy]
    exact hv []

theorem textWords_append_iff (u v : Text) :
    textWords isAlpha (u ++ v) = textWords isAlpha u ++ textWords isAlpha v ↔ LineKept isAlpha u v := by
  obtain ⟨ws, ws', huv, hu, hv⟩ := exists_around isAlpha u v
  rw [LineKept, ← lineWords_append_iff, huv, hu, hv, List.append_assoc, List.append_cancel_left_eq, ← List.append_assoc,
    List.append_cancel_right_eq]

/-- The white space is still there after the cleaning, unless it starts or ends the line. -/
theorem meetAtSpace_of_atKeptSpace {u v : Text} (h : AtKeptSpace u v) :
    lastLine u = [] ∨ firstLine v = [] ∨ MeetAtSpace (cleanChars (lastLine u)) (cleanChars (firstLine v)) := by
  obtain ⟨c, hc, hs, hn⟩ := h
  have hne := cleanChars_space_ne_nil hs hn
  have hall := isSpace_cleanChars (t := [c]) (List.forall_mem_singleton.mpr hs)
  rcases hc with hc | hc
  · obtain ⟨u, rfl⟩ := List.getLast?_eq_some_iff.mp hc
    by_cases hnl : c = '\n'
    · exact .inl (List.rtakeWhile_concat_neg _ _ _ (by simpa using hnl))
    · have hline : lastLine (u ++ [c]) = lastLine u ++ [c] := List.rtakeWhile_concat_pos _ _ _ (by simpa using hnl)
      rw [hline, cleanChars_append, MeetAtSpace, List.getLast?_append_of_ne_nil _ hne]
      have hlast := List.getLast?_eq_some_getLast hne
      exact .inr (.inr (.inl ⟨_, hlast, hall _ (List.mem_of_getLast? hlast)⟩))
  · obtain ⟨v, rfl⟩ := List.head?_eq_some_iff.mp hc
    by_cases hnl : c = '\n'
    · exact .inr (.inl (List.takeWhile_cons_of_neg (by simpa using hnl)))
    · have hline : firstLine (c :: v) = c :: firstLine v := List.takeWhile_cons_of_pos (by simpa using hnl)
      rw [hline, cleanChars_cons, MeetAtSpace, List.head?_append_of_ne_nil _ hne]
      have hhead := List.head?_eq_some_head hne
      exact .inr (.inr (.inr ⟨_, hhead, hall _ (List.mem_of_head? hhead)⟩))

theorem textWords_moves {u v : Text} (hs : AtKeptSpace u v) (h : ¬ LineKept isAlpha u v) :
    Moves isAlpha (textWords isAlpha (u ++ v)) (textWords isAlpha u ++ textWords isAlpha v) := by
  obtain ⟨ws, ws', huv, hu, hv⟩ := exists_around isAlpha u v
  have hm : MeetAtSpace (cleanChars (lastLine u)) (cleanChars (firstLine v)) := by
    rcases meetAtSpace_of_atKeptSpace hs with hx | hy | hm
    · exact absurd (.inl (by rw [hx, cleanChars_nil, words_nil])) h
    · exact absurd (.inr (.inl (by rw [hy, cleanChars_nil, words_nil]))) h
    · exact hm
  have := (lineWords_moves hm h).context ws ws'
  rwa [huv, hu, hv, List.append_assoc, ← List.append_assoc (lineWords isAlpha (lastLine u))]

/-! ## The extraction -/

/-- The extraction returns the same words for `ys` in the place of `xs`. -/
def SameWords (isAlpha : Char → Bool) (before after xs ys : List Text) : Prop :=
  words (extractText isAlpha (before ++ xs ++ after)) = words (extractText isAlpha (before ++ ys ++ after))

theorem sameWords_iff {before after xs ys : List Text} : SameWords isAlpha before after xs ys ↔
    xs.flatMap (textWords isAlpha) = ys.flatMap (textWords isAlpha) := by
  rw [SameWords, words_extractText, words_extractText, List.flatMap_append, List.flatMap_append, List.flatMap_append,
    List.flatMap_append, List.append_cancel_right_eq, List.append_cancel_left_eq]

/-- **A text node that is split in two or three keeps its words when, at each split, the two parts of the line are kept
on their own.** -/
theorem inlineMarkup_iff (isAlpha : Char → Bool) (before after : List Text) :
    (∀ u v, SameWords isAlpha before after [u ++ v] [u, v] ↔ LineKept isAlpha u v) ∧
      (∀ u v w, LineKept isAlpha u (v ++ w) ∧ LineKept isAlpha v w →
        SameWords isAlpha before after [u ++ (v ++ w)] [u, v, w]) ∧
        ∀ u v w, AtKeptSpace u (v ++ w) → AtKeptSpace v w →
          SameWords isAlpha before after [u ++ (v ++ w)] [u, v, w] →
            LineKept isAlpha u (v ++ w) ∧ LineKept isAlpha v w := by
  have hone : ∀ t, [t].flatMap (textWords isAlpha) = textWords isAlpha t := fun t => List.flatMap_singleton _ _
  refine ⟨fun u v => ?_, fun u v w h => ?_, fun u v w hu hv h => ?_⟩
  · rw [sameWords_iff, hone, List.flatMap_cons, hone, textWords_append_iff]
  · rw [sameWords_iff, hone, List.flatMap_cons, List.flatMap_cons, hone, (textWords_append_iff _ _).mpr h.1,
      (textWords_append_iff _ _).mpr h.2]
  · rw [sameWords_iff, hone, List.flatMap_cons, List.flatMap_cons, hone] at h
    -- two splits that both change the words do not make up for each other
    have hsecond : ¬ LineKept isAlpha v w → Moves isAlpha (textWords isAlpha u ++ textWords isAlpha (v ++ w))
        (textWords isAlpha u ++ (textWords isAlpha v ++ textWords isAlpha w)) := by
      intro hk
      simpa using (textWords_moves hv hk).context (textWords isAlpha u) []
    by_cases hkv : LineKept isAlpha v w
    · refine ⟨?_, hkv⟩
      rwa [← textWords_append_iff, (textWords_append_iff v w).mpr hkv]
    · by_cases hku : LineKept isAlpha u (v ++ w)
      · exact absurd (((textWords_append_iff _ _).mpr hku).symm.trans h) (hsecond hkv).ne
      · exact absurd h ((textWords_moves hu hku).trans (hsecond hkv)).ne

namespace MarkupSample

/-- `<p>The limit is <b>50%</b> of income.</p>`. -/
def limit : Text := "The limit is ".toList
def figure : Text := "50%".toList
def income : Text := " of income.".toList

/-- The same sentence with the figure as a word. -/
def figureWord : Text := "fifty percent".toList

end MarkupSample

open MarkupSample in
theorem inlineMarkup_iff_word :
    SameWords Char.isAlpha [] [] [limit ++ (figureWord ++ income)] [limit, figureWord, income] ∧
      LineKept Char.isAlpha limit (figureWord ++ income) ∧ LineKept Char.isAlpha figureWord income := by
  have hfirst : AtKeptSpace limit (figureWord ++ income) := ⟨' ', .inl (by decide), by decide, by decide⟩
  have hsecond : AtKeptSpace figureWord income := ⟨' ', .inr (by decide), by decide, by decide⟩
  obtain ⟨-, hsame, hkept⟩ := inlineMarkup_iff Char.isAlpha [] []
  have hline : LineKept Char.isAlpha limit (figureWord ++ income) ∧ LineKept Char.isAlpha figureWord income :=
    ⟨.inr (.inr (.inl ⟨by decide, by decide, .inl ⟨' ', by decide, by decide⟩⟩)),
      .inr (.inr (.inl ⟨by decide, by decide, .inr ⟨' ', by decide, by decide⟩⟩))⟩
  exact ⟨hsame _ _ _ hline, hkept _ _ _ hfirst hsecond (hsame _ _ _ hline)⟩

open MarkupSample in
/-- The figure is lost. -/
theorem not_inlineMarkup : ¬ ∀ (before after : List Text) (u v : Text), AtSpace u v →
    SameWords Char.isAlpha before after [u ++ v] [u, v] ∧
      ∀ w, AtSpace v w → SameWords Char.isAlpha before after [u ++ (v ++ w)] [u, v, w] := by
  intro h
  have hfirst : AtSpace limit figure := ⟨' ', .inl (by decide), by decide⟩
  have hsecond : AtSpace figure income := ⟨' ', .inr (by decide), by decide⟩
  have hlost : ¬ SameWords Char.isAlpha [] [] [limit ++ (figure ++ income)] [limit, figure, income] := by
    rw [SameWords]
    decide
  exact hlost ((h [] [] limit figure hfirst).2 income hsecond)

end ComplianceLoop
