import ComplianceLoop.PyLib.RunMaps
import ComplianceLoop.Retrieval.Chunker
import ComplianceLoop.Retrieval.Preprocessor

/-!
# The cleaning before the chunker

The preprocessor ends with `_clean_final`, and `chunk_text` begins with `_normalise_whitespace`: the first shortens
blanks and then newlines, the second reads line endings, shortens newlines and then blanks, and both strip. Each of
these steps works run by run, so they can be exchanged, and what the first has done makes no difference to the second
(`normaliseWhitespace_cleanFinal`): the chunks of a cleaned text are the chunks of the text (`chunkText_cleanFinal`).
-/

set_option autoImplicit false

namespace ComplianceLoop

open PyLib

/-! ## The steps, run by run -/

/-- The line endings, read as newlines. -/
def readNewlines (text : Text) : Text := replaceAll ['\r'] ['\n'] (replaceAll ['\r', '\n'] ['\n'] text)

/-- A character of a line ending. -/
def isBreak (c : Char) : Bool := c = '\r' || c = '\n'

theorem isSpace_of_isBreak {c : Char} (h : isBreak c = true) : isSpace c = true := by
  simp only [isBreak, Bool.or_eq_true, decide_eq_true_eq] at h
  rcases h with rfl | rfl <;> decide

theorem not_isBlankChar_of_isBreak {c : Char} (h : isBreak c = true) : isBlankChar c = false := by
  simp only [isBreak, Bool.or_eq_true, decide_eq_true_eq] at h
  rcases h with rfl | rfl <;> decide

theorem runMap_collapseSpaces : RunMap isBlankChar collapseSpaces := by
  have h : collapseSpaces = mapRuns isBlankChar (Regex.replaceLong 2 [' ']) := funext collapseSpaces_eq
  rw [h]
  refine RunMap.mapRuns fun r hne hr => ⟨?_, blank_of_replaceLong hr⟩
  unfold Regex.replaceLong
  split
  · exact List.cons_ne_nil _ _
  · exact hne

theorem collapseNewlines_eq (t : Text) :
    collapseNewlines t = mapRuns (· = '\n') (Regex.replaceLong 3 ['\n', '\n']) t :=
  Regex.sub_atLeast (by decide) ['\n', '\n'] t

theorem newline_of_replaceLong {r : Text} (hr : ∀ c ∈ r, decide (c = '\n') = true) :
    ∀ c ∈ Regex.replaceLong 3 ['\n', '\n'] r, decide (c = '\n') = true := by
  unfold Regex.replaceLong
  split
  · simp
  · exact hr

/-- Runs of newlines are shortened within the line endings. -/
theorem runMap_collapseNewlines : RunMap isBreak collapseNewlines := by
  have h : collapseNewlines = mapRuns (· = '\n') (Regex.replaceLong 3 ['\n', '\n']) := funext collapseNewlines_eq
  rw [h]
  have hnew : RunMap (fun c => decide (c = '\n')) (mapRuns (· = '\n') (Regex.replaceLong 3 ['\n', '\n'])) := by
    refine RunMap.mapRuns fun r hne hr => ⟨?_, newline_of_replaceLong hr⟩
    unfold Regex.replaceLong
    split
    · exact List.cons_ne_nil _ _
    · exact hne
  refine hnew.mono (fun c hc => ?_) fun r hr => ?_
  · rw [of_decide_eq_true hc]
    rfl
  · refine mem_mapRuns (fun u _ hu c hc => ?_) hr
    rw [of_decide_eq_true (newline_of_replaceLong hu c hc)]
    rfl

theorem readNewlines_eq (t : Text) :
    readNewlines t = (subst ['\r', '\n'] ['\n'] t).map fun c => if c = '\r' then '\n' else c := by
  rw [readNewlines, replaceAll_single, replaceAll_eq_subst]
  induction subst ['\r', '\n'] ['\n'] t with
  | nil => rfl
  | cons c t ih =>
    rw [List.flatMap_cons, ih, List.map_cons]
    split <;> rfl

theorem runMap_readNewlines : RunMap isBreak readNewlines where
  nil := rfl
  cut s c t hc := by
    have hmem : c ∉ ['\r', '\n'] := by
      intro h
      simp only [List.mem_cons, List.not_mem_nil, or_false] at h
      rcases h with rfl | rfl <;> exact absurd hc (by decide)
    have hr : c ≠ '\r' := fun h => hmem (h ▸ List.mem_cons_self)
    rw [readNewlines_eq, readNewlines_eq, readNewlines_eq, subst_append_cons (List.cons_ne_nil _ _) hmem,
      List.map_append, List.map_cons, if_neg hr]
  keeps r hr c hc := by
    rw [readNewlines_eq, List.mem_map] at hc
    obtain ⟨d, hd, rfl⟩ := hc
    split
    · rfl
    · rcases mem_subst (List.cons_ne_nil _ _) hd with h | h
      · rw [List.mem_singleton.mp h]
        rfl
      · exact hr d h
  nonempty r hr h := by
    rw [readNewlines_eq, List.map_eq_nil_iff] at h
    cases r with
    | nil => exact hr rfl
    | cons c r =>
      rw [subst, substFrom] at h
      split at h <;> cases h

/-! ## Line endings -/

/-- A run of line endings is read as newlines. -/
theorem readNewlines_run {r : Text} (hr : ∀ c ∈ r, isBreak c = true) :
    ∀ c ∈ readNewlines r, decide (c = '\n') = true := by
  intro c hc
  have hbreak := runMap_readNewlines.keeps r hr c hc
  rw [readNewlines_eq, List.mem_map] at hc
  obtain ⟨d, -, rfl⟩ := hc
  by_cases hd : d = '\r'
  · rw [if_pos hd]
    rfl
  · rw [if_neg hd] at hbreak ⊢
    simpa [isBreak, hd] using hbreak

/-- Every newline is read as one. -/
theorem countP_le_length_readNewlines (t : Text) : t.countP (· = '\n') ≤ (readNewlines t).length := by
  have hkept := flatMap_subst (p := ['\r', '\n']) (r := ['\n']) (List.cons_ne_nil _ _)
    (f := fun c => if c = '\n' then [c] else []) (by decide) t
  have hcount : ∀ u : Text, (u.flatMap fun c => if c = '\n' then [c] else []).length = u.countP (· = '\n') := by
    intro u
    induction u with
    | nil => rfl
    | cons c u ih =>
      rw [List.flatMap_cons, List.length_append, ih, List.countP_cons]
      by_cases hc : c = '\n' <;> simp [hc, Nat.add_comm]
  rw [readNewlines_eq, List.length_map, ← hcount, ← hkept, hcount]
  exact List.countP_le_length

/-- Newlines that are shortened are three at least, and two are left. -/
theorem collapseNewlines_cases (t : Text) : collapseNewlines t = t ∨
    3 ≤ t.countP (· = '\n') ∧ 2 ≤ (collapseNewlines t).countP (· = '\n') := by
  rw [collapseNewlines_eq]
  exact RunMap.mapRuns_long ['\n', '\n'] t

/-- What the chunker makes of a run of line endings depends on how many newlines it is read as. -/
theorem collapseNewlines_run {r : Text} (hr : ∀ c ∈ r, decide (c = '\n') = true) :
    collapseNewlines r = if 3 ≤ r.length then ['\n', '\n'] else r := by
  rw [collapseNewlines_eq, mapRuns_of_run hr, flush, Regex.replaceLong]
  split
  · rename_i h
    rw [h]
    rfl
  · rfl

/-- **Newlines that have been shortened before the line endings are read make no difference.** -/
theorem collapse_read_collapse (t : Text) :
    collapseNewlines (readNewlines (collapseNewlines t)) = collapseNewlines (readNewlines t) := by
  have hread := runMap_collapseNewlines.comp runMap_readNewlines
  refine (hread.comp runMap_collapseNewlines).ext hread (fun r hr => ?_) t
  rcases collapseNewlines_cases r with h | ⟨h3, h2⟩
  · rw [h]
  · have hlong := h3.trans (countP_le_length_readNewlines r)
    have hleft := h2.trans (countP_le_length_readNewlines (collapseNewlines r))
    have hcr := runMap_collapseNewlines.keeps r hr
    rw [collapseNewlines_run (readNewlines_run hr), if_pos hlong, collapseNewlines_run (readNewlines_run hcr)]
    split
    · rfl
    · rename_i hshort
      have hlen : (readNewlines (collapseNewlines r)).length = 2 := by omega
      exact List.eq_replicate_iff.mpr ⟨hlen, fun c hc => of_decide_eq_true (readNewlines_run hcr c hc)⟩

/-! ## Exchanging the steps -/

theorem collapseSpaces_collapseSpaces (t : Text) : collapseSpaces (collapseSpaces t) = collapseSpaces t := by
  simp only [collapseSpaces_eq]
  exact RunMap.mapRuns_mapRuns (by simp) Nat.one_lt_two (fun c hc => by rw [List.mem_singleton.mp hc]; rfl) t

theorem collapseNewlines_collapseNewlines (t : Text) : collapseNewlines (collapseNewlines t) = collapseNewlines t := by
  simp only [collapseNewlines_eq]
  exact RunMap.mapRuns_mapRuns (by simp) (by simp) (by simp) t

/-- The steps of `_normalise_whitespace` are the same substitutions. -/
theorem normaliseWhitespace_eq (t : Text) :
    normaliseWhitespace t = strip (collapseSpaces (collapseNewlines (readNewlines t))) := by
  have hnew : (Regex.cat (.char (· = '\n')) (.cat (.char (· = '\n')) (.some (· = '\n')))).ends =
      (Regex.atLeast (· = '\n') 3).ends := by
    simp only [Regex.some, Regex.ends_char_cat, Regex.ends_atLeast_succ, Regex.ends_atLeast_zero]
  have hblank : (Regex.cat (.char isBlankChar) (.some isBlankChar)).ends = (Regex.atLeast isBlankChar 2).ends := by
    simp only [Regex.some, Regex.ends_char_cat, Regex.ends_atLeast_succ, Regex.ends_atLeast_zero]
  rw [collapseSpaces, collapseNewlines, ← Regex.sub_congr hnew, ← Regex.sub_congr hblank]
  rfl

/-- **What the preprocessor has cleaned makes no difference to what the chunker normalises.** -/
theorem normaliseWhitespace_cleanFinal (t : Text) : normaliseWhitespace (cleanFinal t) = normaliseWhitespace t := by
  have hspace : ∀ c, isBlankChar c = true → isSpace c = true := fun _ => isSpace_of_isBlankChar
  have hbreak : ∀ c, isBreak c = true → isSpace c = true := fun _ => isSpace_of_isBreak
  have hdisjoint : ∀ c, isBreak c = true → isBlankChar c = false := fun _ => not_isBlankChar_of_isBreak
  have hread := runMap_readNewlines
  have hnew := runMap_collapseNewlines
  have hblank := runMap_collapseSpaces
  calc normaliseWhitespace (cleanFinal t)
      = strip (collapseSpaces (collapseNewlines (readNewlines (strip (collapseNewlines (collapseSpaces t)))))) := by
        rw [normaliseWhitespace_eq, cleanFinal]
    _ = strip (collapseSpaces (collapseNewlines (readNewlines (collapseNewlines (collapseSpaces t))))) := by
        rw [← hread.strip hbreak, ← hnew.strip hbreak, ← hblank.strip hspace, strip_strip]
    _ = strip (collapseSpaces (collapseNewlines (readNewlines (collapseSpaces t)))) := by
        rw [collapse_read_collapse]
    _ = strip (collapseSpaces (collapseSpaces (collapseNewlines (readNewlines t)))) := by
        rw [hread.comm hblank hdisjoint, hnew.comm hblank hdisjoint]
    _ = normaliseWhitespace t := by rw [collapseSpaces_collapseSpaces, normaliseWhitespace_eq]

/-! ## Cleaned texts -/

theorem cleanFinal_cleanFinal (t : Text) : cleanFinal (cleanFinal t) = cleanFinal t := by
  have hspace : ∀ c, isBlankChar c = true → isSpace c = true := fun _ => isSpace_of_isBlankChar
  have hbreak : ∀ c, isBreak c = true → isSpace c = true := fun _ => isSpace_of_isBreak
  have hdisjoint : ∀ c, isBreak c = true → isBlankChar c = false := fun _ => not_isBlankChar_of_isBreak
  rw [cleanFinal, cleanFinal, ← runMap_collapseSpaces.strip hspace, ← runMap_collapseNewlines.strip hbreak,
    strip_strip, ← runMap_collapseNewlines.comm runMap_collapseSpaces hdisjoint, collapseSpaces_collapseSpaces,
    collapseNewlines_collapseNewlines]

theorem strip_cleanFinal_eq_nil (t : Text) : strip (cleanFinal t) = [] ↔ strip t = [] := by
  have hspace : ∀ c, isBlankChar c = true → isSpace c = true := fun _ => isSpace_of_isBlankChar
  have hbreak : ∀ c, isBreak c = true → isSpace c = true := fun _ => isSpace_of_isBreak
  rw [cleanFinal, strip_strip, runMap_collapseNewlines.strip hbreak, runMap_collapseNewlines.eq_nil_iff,
    runMap_collapseSpaces.strip hspace, runMap_collapseSpaces.eq_nil_iff]

/-- **A text is cleaned once and for all, and the chunker makes the chunks of the text that was not.** -/
theorem chunkText_cleanFinal (chunker : Chunker) (text sourceDocumentId sourceUrl : Text)
    (chunkSizeTokens overlapTokens : Int) :
    cleanFinal (cleanFinal text) = cleanFinal text ∧
      chunker.chunkText (cleanFinal text) sourceDocumentId sourceUrl chunkSizeTokens overlapTokens =
        chunker.chunkText text sourceDocumentId sourceUrl chunkSizeTokens overlapTokens := by
  refine ⟨cleanFinal_cleanFinal text, ?_⟩
  have hempty : (strip (cleanFinal text)).isEmpty = (strip text).isEmpty := by
    rw [Bool.eq_iff_iff, List.isEmpty_iff, List.isEmpty_iff, strip_cleanFinal_eq_nil]
  rw [Chunker.chunkText, Chunker.chunkText, hempty, normaliseWhitespace_cleanFinal]

end ComplianceLoop
