import ComplianceLoop.PyLib.Words
import ComplianceLoop.PyLib.Matching
import ComplianceLoop.Retrieval.Placeholders

/-!
# Sentences (`_split_into_sentences`)

A text is split at white space only, which is in no placeholder: the sentences are restored as the whole text is
(`visible_sentences`). Their characters are those of the text, up to white space, unless the text forms a placeholder
(`keepsCharacters_iff`).
-/

set_option autoImplicit false

namespace ComplianceLoop

open PyLib

/-- `_split_into_sentences` returns the characters of the text, up to white space, and no others. -/
def KeepsCharacters (text : Text) : Prop := visible (splitIntoSentences text).flatten = visible text

instance (text : Text) : Decidable (KeepsCharacters text) := inferInstanceAs (Decidable (_ = _))

/-! ## White space -/

theorem visible_append (s t : Text) : visible (s ++ t) = visible s ++ visible t := List.filter_append s t

theorem visible_flatten (ts : List Text) : visible ts.flatten = ts.flatMap visible := by
  rw [visible, List.filter_flatten, List.flatMap_def]
  rfl

theorem visible_space {c : Char} (hc : isSpace c = true) (t : Text) : visible (c :: t) = visible t :=
  List.filter_cons_of_neg (by simp [hc])

theorem visible_strip (t : Text) : visible (strip t) = visible t := by
  rw [visible, visible, ← flatten_words, ← flatten_words, words_strip]

theorem visible_eq_nil {t : Text} : visible t = [] ↔ ∀ c ∈ t, isSpace c = true := by
  simp [visible, List.filter_eq_nil_iff]

/-- Matches of `sentenceBreak` are white space. -/
theorem isSpace_of_sentenceBreak (prev : Option Char) (u : Text) (next : Option Char)
    (h : sentenceBreak.Matches prev u next) : ∀ c ∈ u, isSpace c = true := by
  obtain ⟨_, _, rfl, ⟨rfl, -⟩, _, _, rfl, ⟨_, w, rfl, ⟨c, rfl, hc⟩, hw⟩, rfl, -⟩ := h
  have hrest : ∀ d ∈ w, isSpace d = true := hw
  simpa [hc] using hrest

theorem space_notMem_placeholder {c : Char} (hc : isSpace c = true) : ∀ i < 16, c ∉ placeholder i := by
  intro i hi hmem
  have hall : ∀ i < 16, (placeholder i).all (!isSpace ·) = true := by decide
  have := List.all_eq_true.mp (hall i hi) c hmem
  rw [hc] at this
  cases this

theorem restoreAll_nil : restoreAll [] = [] := by decide

theorem restoreAll_append_space {c : Char} (hc : isSpace c = true) (s t : Text) :
    restoreAll (s ++ c :: t) = restoreAll s ++ c :: restoreAll t := by
  simp only [restoreAll_eq_rounds]
  exact replaceRounds_append_cons (fun i _ => placeholder_ne_nil i) (space_notMem_placeholder hc) s t (Nat.le_refl 16)

/-- White space in a text is not seen in what is restored. -/
theorem visible_restoreAll_append (c : Char) (s t : Text) (hc : isSpace c = true) :
    visible (restoreAll (s ++ c :: t)) = visible (restoreAll s) ++ visible (restoreAll t) := by
  rw [restoreAll_append_space hc, visible_append, visible_space hc]

/-! ## The sentences -/

/-- `sentences`. -/
def restoredSentences (text : Text) : List Text :=
  ((sentenceBreak.split (protectAll text)).map fun sent => strip (restoreAll sent)).filter (!·.isEmpty)

theorem splitIntoSentences_eq (text : Text) :
    splitIntoSentences text = if (restoredSentences text).isEmpty then [text] else restoredSentences text := rfl

/-- **The sentences hold what is restored of the whole text.** -/
theorem visible_sentences (text : Text) :
    visible (restoredSentences text).flatten = visible (restoreAll (protectAll text)) := by
  have hsplit := Regex.flatMap_split (F := fun sent => visible (restoreAll sent)) isSpace_of_sentenceBreak
    (by rw [restoreAll_nil]; rfl) visible_restoreAll_append (protectAll text)
  rw [← hsplit, restoredSentences, List.flatten_filter_not_isEmpty, visible_flatten, List.flatMap_map]
  simp only [visible_strip]

/-- Nothing is restored of white space only. -/
theorem isSpace_of_restoreAll {text : Text} (h : visible (restoreAll (protectAll text)) = []) : visible text = [] := by
  have habbr : ∀ i < 16, ∃ c ∈ abbr i, ¬ isSpace c = true := by
    intro i hi
    have hany : ∀ i < 16, (abbr i).any (!isSpace ·) = true := by decide
    obtain ⟨c, hc, hn⟩ := List.any_eq_true.mp (hany i hi)
    exact ⟨c, hc, by simpa using hn⟩
  have hplaceholder : ∀ i < 16, ∃ c ∈ placeholder i, ¬ isSpace c = true := fun i _ =>
    ⟨'_', List.mem_cons_self, by decide⟩
  rw [visible_eq_nil, restoreAll_eq_rounds] at h
  have h' := forall_mem_of_replaceRounds (fun i _ => placeholder_ne_nil i) habbr (Nat.le_refl 16) h
  rw [protectAll_eq_rounds] at h'
  exact visible_eq_nil.mpr (forall_mem_of_replaceRounds abbr_ne_nil hplaceholder (Nat.le_refl 16) h')

/-- The sentences are as good as the text that is restored at once. -/
theorem keepsCharacters_iff_restore (text : Text) :
    KeepsCharacters text ↔ visible (restoreAll (protectAll text)) = visible text := by
  rw [KeepsCharacters, splitIntoSentences_eq]
  split
  · rename_i hempty
    have hnil : visible (restoreAll (protectAll text)) = [] := by
      rw [← visible_sentences, List.isEmpty_iff.mp hempty]
      rfl
    rw [List.flatten_singleton, hnil, isSpace_of_restoreAll hnil]
  · rw [visible_sentences]

/-- **Splitting loses nothing exactly of the texts that form no placeholder.** -/
theorem keepsCharacters_iff (text : Text) : KeepsCharacters text ↔ ¬ FormsPlaceholder text := by
  rw [keepsCharacters_iff_restore, visible_restore_iff, ← strayMatch_iff_formsPlaceholder]
  simp only [not_exists, not_and]

theorem not_keepsCharacters : ¬ KeepsCharacters "__ABBR0__".toList := by decide

end ComplianceLoop
