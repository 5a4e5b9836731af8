import ComplianceLoop.Retrieval.Chunker

/-!
# What the chunker keeps

The windows of a call are the chunks that it would return if it discarded none for its length. Every paragraph, and
every sentence of a large one, stands in a window (`window_of_unit`), and the chunks have the texts of the windows that
are long enough (`chunkText_texts`); so a unit is lost only if all its windows are too short (`kept_iff`).
-/

set_option autoImplicit false

namespace ComplianceLoop

open PyLib

/-! ## Texts without other characters than white space -/

/-- White space is stripped away. -/
theorem strip_of_spaces {t : Text} (h : ∀ c ∈ t, isSpace c = true) : strip t = [] := by
  show (t.dropWhile isSpace).rdropWhile isSpace = []
  rw [List.dropWhile_eq_nil_iff.mpr h]
  rfl

theorem isSpace_of_strip {t : Text} (h : strip t = []) : ∀ c ∈ t, isSpace c = true := by
  intro c hc
  by_contra hs
  have hm : c ∈ strip t := mem_stripChars (f := isSpace) (Bool.eq_false_iff.mpr hs) hc
  rw [h] at hm
  cases hm

/-- The paragraphs of a blank text. -/
theorem paragraphs_of_blank {text : Text} (h : strip text = []) :
    splitIntoParagraphs (normaliseWhitespace text) = [] := by
  have hspaces := isSpace_of_strip h
  have hnorm : normaliseWhitespace text = [] := by
    refine strip_of_spaces fun c hc => ?_
    obtain hc | hc := Regex.mem_sub hc
    · rw [List.mem_singleton.mp hc]
      decide
    obtain hc | hc := Regex.mem_sub hc
    · have hn : c = '\n' := by simpa using hc
      rw [hn]
      decide
    obtain hc | hc := mem_replaceAll hc
    · rw [List.mem_singleton.mp hc]
      decide
    obtain hc | hc := mem_replaceAll hc
    · rw [List.mem_singleton.mp hc]
      decide
    exact hspaces c hc
  rw [hnorm]
  rfl

/-! ## Windows that are held back for their length -/

@[simp] theorem Emitted.add_chunks (e : Emitted) (o : Option TextChunk) : (e.add o).chunks = e.chunks ++ o.toList := by
  cases o
  · exact (List.append_nil _).symm
  · rfl

/-- The texts of chunks. -/
def texts (chunks : List TextChunk) : List Text := chunks.map TextChunk.text

@[simp] theorem texts_append (chunks chunks' : List TextChunk) :
    texts (chunks ++ chunks') = texts chunks ++ texts chunks' := List.map_append

section

variable {α : Type} {content : List α → Text} {keep : Text → Bool} {make make₀ : List α → Nat → Option TextChunk}

/-- `make` joins the items of a window, and drops the joined texts that `keep` rejects. -/
def Makes (content : List α → Text) (keep : Text → Bool) (make : List α → Nat → Option TextChunk) : Prop :=
  ∀ items i, items ≠ [] →
    (make items i).map TextChunk.text = if keep (content items) then some (content items) else none

/-- The same window, and those of the chunks of `e₀` that `keep` lets through. -/
structure Windowed.Filters (keep : Text → Bool) (s s₀ : Windowed α) : Prop where
  current : s.current = s₀.current
  currentTokens : s.currentTokens = s₀.currentTokens
  chunks : texts s.emitted.chunks = (texts s₀.emitted.chunks).filter keep

theorem Makes.texts_add {items : List α} (hm : Makes content keep make) (hne : items ≠ []) (e : Emitted) (i : Nat) :
    texts (e.add (make items i)).chunks =
      texts e.chunks ++ if keep (content items) then [content items] else [] := by
  have h := hm items i hne
  rw [Emitted.add_chunks, texts_append]
  cases hc : make items i with
  | none =>
    rw [hc] at h
    split at h
    · cases h
    · rename_i hk
      rw [if_neg hk]
      rfl
  | some c =>
    rw [hc] at h
    split at h
    · rename_i hk
      rw [if_pos hk, ← Option.some.inj h]
      rfl
    · cases h

variable {s s₀ : Windowed α}

theorem Windowed.Filters.emit (h : s.Filters keep s₀) (hm : Makes content keep make)
    (hm₀ : Makes content (fun _ => true) make₀) (hne : s₀.current ≠ []) :
    texts (s.emit make).chunks = (texts (s₀.emit make₀).chunks).filter keep := by
  rw [Windowed.emit, Windowed.emit, h.current, hm.texts_add hne, hm₀.texts_add hne, h.chunks, if_pos rfl,
    List.filter_append, List.filter_singleton, ← Bool.cond_eq_ite]

theorem Windowed.Filters.flush (h : s.Filters keep s₀) (hm : Makes content keep make)
    (hm₀ : Makes content (fun _ => true) make₀) :
    texts (s.flush make).chunks = (texts (s₀.flush make₀).chunks).filter keep := by
  rw [Windowed.flush, Windowed.flush, h.current]
  split
  · exact h.chunks
  · rename_i hne
    exact h.emit hm hm₀ (by simpa using hne)

theorem Windowed.Filters.push {count : α → Nat} {size overlap : Int} (h : s.Filters keep s₀)
    (hm : Makes content keep make) (hm₀ : Makes content (fun _ => true) make₀) (x : α) :
    (s.push count make size overlap x).Filters keep (s₀.push count make₀ size overlap x) := by
  have happend : (⟨s.emitted, s.current ++ [x], s.currentTokens + count x⟩ : Windowed α).Filters keep
      ⟨s₀.emitted, s₀.current ++ [x], s₀.currentTokens + count x⟩ :=
    ⟨by rw [h.current], by rw [h.currentTokens], h.chunks⟩
  unfold Windowed.push
  simp only [h.currentTokens]
  split
  · refine ⟨by simp only [h.current], by simp only [h.current], ?_⟩
    simpa only [h.currentTokens] using happend.emit hm hm₀ (by simp)
  · simpa only [h.currentTokens] using happend

end

/-! ## The windows of a call -/

namespace Chunker

/-- The chunker that discards no chunk for its length. -/
def keepAll (chunker : Chunker) : Chunker := { chunker with minChunkSizeTokens := 0 }

/-- Long enough for a chunk. -/
def longEnough (chunker : Chunker) (t : Text) : Bool := chunker.minChunkSizeTokens ≤ chunker.countTokens t

section

variable (chunker : Chunker) (text sourceDocumentId sourceUrl : Text) (size overlap : Int)

theorem longEnough_keepAll : chunker.keepAll.longEnough = fun _ => true := by
  funext t
  exact decide_eq_true (Nat.zero_le _)

theorem makes_makeChunk : Makes (fun paras => "\n\n".toList.intercalate (paras.map Prod.snd)) chunker.longEnough
    (chunker.makeChunk text sourceDocumentId sourceUrl) := by
  intro paras i hne
  cases paras with
  | nil => exact absurd rfl hne
  | cons p rest =>
    unfold makeChunk longEnough
    dsimp only
    by_cases hshort : chunker.countTokens ("\n\n".toList.intercalate ((p :: rest).map Prod.snd)) <
        chunker.minChunkSizeTokens
    · rw [if_pos hshort]
      exact (if_neg (by simpa using hshort)).symm
    · rw [if_neg hshort]
      exact (if_pos (by simpa using hshort)).symm

theorem makes_makeSentenceChunk : Makes ([' '].intercalate ·) chunker.longEnough
    (chunker.makeSentenceChunk text sourceDocumentId sourceUrl) := by
  intro sents i _
  unfold makeSentenceChunk longEnough
  dsimp only
  by_cases hlong : chunker.minChunkSizeTokens ≤ chunker.countTokens ([' '].intercalate sents)
  · rw [if_pos hlong]
    exact (if_pos (by simpa using hlong)).symm
  · rw [if_neg hlong]
    exact (if_neg (by simpa using hlong)).symm

/-- The same without the filter. -/
theorem keepAll_makeChunk : Makes (fun paras => "\n\n".toList.intercalate (paras.map Prod.snd)) (fun _ => true)
    (chunker.keepAll.makeChunk text sourceDocumentId sourceUrl) :=
  chunker.longEnough_keepAll ▸ chunker.keepAll.makes_makeChunk text sourceDocumentId sourceUrl

theorem keepAll_makeSentenceChunk : Makes ([' '].intercalate ·) (fun _ => true)
    (chunker.keepAll.makeSentenceChunk text sourceDocumentId sourceUrl) :=
  chunker.longEnough_keepAll ▸ chunker.keepAll.makes_makeSentenceChunk text sourceDocumentId sourceUrl

/-- The chunks of a large paragraph are its windows that are long enough, whatever the indices. -/
theorem chunkLargeParagraph_texts (para : Text) (i j : Nat) :
    texts (chunker.chunkLargeParagraph text sourceDocumentId sourceUrl size overlap para i) =
      (texts (chunker.keepAll.chunkLargeParagraph text sourceDocumentId sourceUrl size overlap para j)).filter
        chunker.longEnough := by
  refine Windowed.Filters.flush ?_ (chunker.makes_makeSentenceChunk text sourceDocumentId sourceUrl)
    (chunker.keepAll_makeSentenceChunk text sourceDocumentId sourceUrl)
  refine List.foldl_rel (r := Windowed.Filters chunker.longEnough) ⟨rfl, rfl, rfl⟩ fun sent _ _ _ h => ?_
  exact h.push (chunker.makes_makeSentenceChunk text sourceDocumentId sourceUrl)
    (chunker.keepAll_makeSentenceChunk text sourceDocumentId sourceUrl) sent

theorem chunkParagraph_filters {s s₀ : Windowed (Nat × Text)} (h : s.Filters chunker.longEnough s₀) (p : Nat × Text) :
    (chunker.chunkParagraph text sourceDocumentId sourceUrl size overlap s p).Filters chunker.longEnough
      (chunker.keepAll.chunkParagraph text sourceDocumentId sourceUrl size overlap s₀ p) := by
  have hm := chunker.makes_makeChunk text sourceDocumentId sourceUrl
  have hm₀ := chunker.keepAll_makeChunk text sourceDocumentId sourceUrl
  have hcount : chunker.keepAll.countTokens = chunker.countTokens := rfl
  unfold chunkParagraph
  dsimp only
  rw [hcount]
  by_cases hlarge : size < chunker.countTokens p.2
  · rw [if_pos hlarge, if_pos hlarge]
    refine ⟨rfl, by rw [h.current, h.currentTokens], ?_⟩
    rw [texts_append, texts_append, List.filter_append, h.flush hm hm₀,
      chunker.chunkLargeParagraph_texts text sourceDocumentId sourceUrl size overlap p.2 _ (s₀.flush _).chunkIndex]
  · rw [if_neg hlarge, if_neg hlarge]
    exact h.push hm hm₀ p

/-- The chunks that the call would return without the minimum size. -/
def windows : List TextChunk := chunker.keepAll.chunkText text sourceDocumentId sourceUrl size overlap

/-- **The chunks have the texts of the windows that are long enough.** -/
theorem chunkText_texts :
    texts (chunker.chunkText text sourceDocumentId sourceUrl size overlap) =
      (texts (chunker.windows text sourceDocumentId sourceUrl size overlap)).filter chunker.longEnough := by
  unfold windows chunkText
  split
  · rfl
  · refine Windowed.Filters.flush ?_ (chunker.makes_makeChunk _ sourceDocumentId sourceUrl)
      (chunker.keepAll_makeChunk _ sourceDocumentId sourceUrl)
    refine List.foldl_rel (r := Windowed.Filters chunker.longEnough) ⟨rfl, rfl, rfl⟩ fun p _ _ _ h => ?_
    exact chunker.chunkParagraph_filters _ sourceDocumentId sourceUrl size overlap h p

end

/-! ## Every unit stands in a window -/

end Chunker

/-- A text that an emitted chunk contains, or that stands in the window being filled. -/
def Windowed.Holds {α : Type} (name : α → Text) (s : Windowed α) (t : Text) : Prop :=
  (∃ c ∈ s.emitted.chunks, t <:+: c.text) ∨ ∃ x ∈ s.current, name x = t

section

variable {α : Type} {name : α → Text} {sep : Text} {make : List α → Nat → Option TextChunk} {s : Windowed α} {t : Text}

/-- An emitted window holds all its items. -/
theorem Windowed.Holds.emit (h : s.Holds name t)
    (hm : Makes (fun xs => sep.intercalate (xs.map name)) (fun _ => true) make) (hne : s.current ≠ []) :
    ∃ c ∈ (s.emit make).chunks, t <:+: c.text := by
  have hmake := hm s.current s.emitted.chunkIndex hne
  obtain ⟨c, hc, htext⟩ := Option.map_eq_some_iff.mp (hmake.trans (if_pos rfl))
  rw [Windowed.emit, hc]
  obtain ⟨d, hd, ht⟩ | ⟨x, hx, rfl⟩ := h
  · exact ⟨d, List.mem_append_left _ hd, ht⟩
  · refine ⟨c, List.mem_append_right _ List.mem_cons_self, ?_⟩
    rw [htext]
    exact infix_intercalate (List.mem_map_of_mem hx)

theorem Windowed.Holds.flush (h : s.Holds name t)
    (hm : Makes (fun xs => sep.intercalate (xs.map name)) (fun _ => true) make) :
    ∃ c ∈ (s.flush make).chunks, t <:+: c.text := by
  rw [Windowed.flush]
  split
  · rename_i hempty
    obtain hc | ⟨x, hx, -⟩ := h
    · exact hc
    · rw [List.isEmpty_iff.mp hempty] at hx
      cases hx
  · rename_i hne
    exact h.emit hm (by simpa using hne)

variable {count : α → Nat} {size overlap : Int}

/-- What the loop holds, and the next item, is held after the next item. -/
theorem Windowed.Holds.push {x : α} (h : s.Holds name t ∨ name x = t)
    (hm : Makes (fun xs => sep.intercalate (xs.map name)) (fun _ => true) make) :
    (s.push count make size overlap x).Holds name t := by
  have happend : (⟨s.emitted, s.current ++ [x], s.currentTokens + count x⟩ : Windowed α).Holds name t := by
    obtain (hc | ⟨y, hy, ht⟩) | ht := h
    · exact .inl hc
    · exact .inr ⟨y, List.mem_append_left _ hy, ht⟩
    · exact .inr ⟨x, List.mem_append_right _ List.mem_cons_self, ht⟩
  unfold Windowed.push
  dsimp only
  split
  · exact .inl (happend.emit hm (by simp))
  · exact happend

theorem Windowed.Holds.pushes (hm : Makes (fun xs => sep.intercalate (xs.map name)) (fun _ => true) make)
    {xs : List α} : ∀ {s : Windowed α}, s.Holds name t ∨ (∃ x ∈ xs, name x = t) →
      (xs.foldl (Windowed.push count make size overlap) s).Holds name t := by
  induction xs with
  | nil =>
    intro s h
    obtain h | ⟨x, hx, -⟩ := h
    · exact h
    · cases hx
  | cons y xs ih =>
    intro s h
    refine ih ?_
    obtain h | ⟨x, hx, ht⟩ := h
    · exact .inl (.push (.inl h) hm)
    · rcases List.mem_cons.mp hx with rfl | hx
      · exact .inl (.push (.inr ht) hm)
      · exact .inr ⟨x, hx, ht⟩

end

namespace Chunker

section

variable (chunker : Chunker) (text sourceDocumentId sourceUrl : Text) (size overlap : Int)

/-- What stands whole in a chunk: a paragraph of at most `size` tokens, or a sentence of a larger one. -/
def unitsOf (para : Text) : List Text := if size < chunker.countTokens para then splitIntoSentences para else [para]

/-- Every sentence of a large paragraph stands in one of its windows. -/
theorem sentence_in_window {para sent : Text} (h : sent ∈ splitIntoSentences para) (i : Nat) :
    ∃ c ∈ chunker.keepAll.chunkLargeParagraph text sourceDocumentId sourceUrl size overlap para i,
      sent <:+: c.text := by
  have hm : Makes (fun xs => [' '].intercalate (xs.map id)) (fun _ => true)
      (chunker.keepAll.makeSentenceChunk text sourceDocumentId sourceUrl) := by
    simpa using chunker.keepAll_makeSentenceChunk text sourceDocumentId sourceUrl
  exact (Windowed.Holds.pushes hm (.inr ⟨sent, h, rfl⟩)).flush hm

/-- The loop of `chunk_text` keeps what it holds, and takes the units of the next paragraph in. -/
theorem chunkParagraph_holds {s : Windowed (Nat × Text)} {p : Nat × Text} {u : Text}
    (h : s.Holds Prod.snd u ∨ u ∈ chunker.unitsOf size p.2) :
    (chunker.keepAll.chunkParagraph text sourceDocumentId sourceUrl size overlap s p).Holds Prod.snd u := by
  have hm := chunker.keepAll_makeChunk text sourceDocumentId sourceUrl
  have hcount : chunker.keepAll.countTokens = chunker.countTokens := rfl
  unfold chunkParagraph
  unfold unitsOf at h
  dsimp only
  rw [hcount]
  by_cases hlarge : size < chunker.countTokens p.2
  · rw [if_pos hlarge] at h
    rw [if_pos hlarge]
    refine .inl ?_
    obtain h | h := h
    · obtain ⟨c, hc, hu⟩ := h.flush hm
      exact ⟨c, List.mem_append_left _ hc, hu⟩
    · obtain ⟨c, hc, hu⟩ := chunker.sentence_in_window text sourceDocumentId sourceUrl size overlap h _
      exact ⟨c, List.mem_append_right _ hc, hu⟩
  · rw [if_neg hlarge, List.mem_singleton] at h
    rw [if_neg hlarge]
    exact .push (h.imp_right Eq.symm) hm

theorem chunkParagraphs_hold {u : Text} : ∀ {ps : List (Nat × Text)} {s : Windowed (Nat × Text)},
    s.Holds Prod.snd u ∨ (∃ p ∈ ps, u ∈ chunker.unitsOf size p.2) →
      (ps.foldl (chunker.keepAll.chunkParagraph text sourceDocumentId sourceUrl size overlap) s).Holds Prod.snd u
  | [], s, h => h.resolve_right fun ⟨_, hp, _⟩ => List.not_mem_nil hp
  | q :: ps, s, h => by
    rw [List.foldl_cons]
    refine chunkParagraphs_hold ?_
    obtain h | ⟨p, hp, hu⟩ := h
    · exact .inl (chunker.chunkParagraph_holds text sourceDocumentId sourceUrl size overlap (.inl h))
    · rcases List.mem_cons.mp hp with rfl | hp
      · exact .inl (chunker.chunkParagraph_holds text sourceDocumentId sourceUrl size overlap (.inr hu))
      · exact .inr ⟨p, hp, hu⟩

/-- **Every paragraph, and every sentence of a large one, stands in a window.** -/
theorem window_of_unit {para u : Text} (hp : para ∈ splitIntoParagraphs (normaliseWhitespace text))
    (hu : u ∈ chunker.unitsOf size para) :
    ∃ w ∈ chunker.windows text sourceDocumentId sourceUrl size overlap, u <:+: w.text := by
  unfold windows chunkText
  split
  · rename_i hblank
    rw [paragraphs_of_blank (List.isEmpty_iff.mp hblank)] at hp
    cases hp
  · obtain ⟨i, hi⟩ := List.mem_iff_getElem?.mp hp
    have hmem : (i, para) ∈ (splitIntoParagraphs (normaliseWhitespace text)).zipIdx.map Prod.swap :=
      List.mem_map.mpr ⟨(para, i), List.mem_zipIdx_iff_getElem?.mpr hi, rfl⟩
    have hheld := chunker.chunkParagraphs_hold (normaliseWhitespace text) sourceDocumentId sourceUrl size overlap
      (s := ⟨⟨[], 0⟩, [], 0⟩) (.inr ⟨_, hmem, hu⟩)
    exact hheld.flush (chunker.keepAll_makeChunk _ sourceDocumentId sourceUrl)

/-- `chunk_text` returned a chunk, and some chunk contains each paragraph and each sentence of a large one. -/
def LosesNothing : Prop :=
  chunker.chunkText text sourceDocumentId sourceUrl size overlap ≠ [] →
    ∀ para ∈ splitIntoParagraphs (normaliseWhitespace text), ∀ u ∈ chunker.unitsOf size para,
      ∃ c ∈ chunker.chunkText text sourceDocumentId sourceUrl size overlap, u <:+: c.text

variable {text}

/-- **A paragraph, or a sentence of a large one, is in a chunk exactly if one of its windows is long enough**, and it
has a window. -/
theorem kept_iff {para u : Text} (hp : para ∈ splitIntoParagraphs (normaliseWhitespace text))
    (hu : u ∈ chunker.unitsOf size para) :
    (∃ w ∈ chunker.windows text sourceDocumentId sourceUrl size overlap, u <:+: w.text) ∧
      ((∃ c ∈ chunker.chunkText text sourceDocumentId sourceUrl size overlap, u <:+: c.text) ↔
        ∃ w ∈ chunker.windows text sourceDocumentId sourceUrl size overlap,
          u <:+: w.text ∧ chunker.minChunkSizeTokens ≤ chunker.countTokens w.text) := by
  have htexts := chunker.chunkText_texts text sourceDocumentId sourceUrl size overlap
  refine ⟨chunker.window_of_unit text sourceDocumentId sourceUrl size overlap hp hu, ?_, ?_⟩
  · rintro ⟨c, hc, hin⟩
    have hmem : c.text ∈ texts (chunker.chunkText text sourceDocumentId sourceUrl size overlap) :=
      List.mem_map_of_mem hc
    rw [htexts, List.mem_filter] at hmem
    obtain ⟨w, hw, htext⟩ := List.mem_map.mp hmem.1
    exact ⟨w, hw, htext ▸ hin, htext ▸ of_decide_eq_true hmem.2⟩
  · rintro ⟨w, hw, hin, hlong⟩
    have hmem : w.text ∈ texts (chunker.chunkText text sourceDocumentId sourceUrl size overlap) := by
      rw [htexts, List.mem_filter]
      exact ⟨List.mem_map_of_mem hw, decide_eq_true hlong⟩
    obtain ⟨c, hc, htext⟩ := List.mem_map.mp hmem
    exact ⟨c, hc, htext ▸ hin⟩

end

namespace Sample

/-- A paragraph of 50 tokens, and one of six. -/
def circular : Text := List.replicate 200 'a' ++ "\n\n".toList ++ "a short closing paragraph".toList

def fallback : Chunker := { countTokens := fallbackCount }

end Sample

theorem kept_iff_closing :
    (∃ w ∈ Sample.fallback.windows Sample.circular [] [] 50 0, "a short closing paragraph".toList <:+: w.text) ∧
      ((∃ c ∈ Sample.fallback.chunkText Sample.circular [] [] 50 0,
          "a short closing paragraph".toList <:+: c.text) ↔
        ∃ w ∈ Sample.fallback.windows Sample.circular [] [] 50 0,
          "a short closing paragraph".toList <:+: w.text ∧ 50 ≤ fallbackCount w.text) := by
  have hpara : "a short closing paragraph".toList ∈ splitIntoParagraphs (normaliseWhitespace Sample.circular) := by
    decide +kernel
  exact kept_iff Sample.fallback [] [] 50 0 hpara (by decide +kernel)

/-- The closing paragraph of the sample is in no chunk. -/
theorem not_losesNothing : ¬∀ (countTokens : Text → Nat) (text sourceDocumentId sourceUrl : Text) (size overlap : Int),
    1 ≤ size → 0 ≤ overlap →
      Chunker.LosesNothing { countTokens := countTokens } text sourceDocumentId sourceUrl size overlap := by
  intro h
  have hchunks : (Chunker.chunkText { countTokens := fallbackCount } Sample.circular [] [] 50 0).map TextChunk.text =
      [List.replicate 200 'a'] := by decide +kernel
  have hpara : "a short closing paragraph".toList ∈ splitIntoParagraphs (normaliseWhitespace Sample.circular) := by
    decide +kernel
  have hne : Chunker.chunkText { countTokens := fallbackCount } Sample.circular [] [] 50 0 ≠ [] := by
    intro hnil
    rw [hnil] at hchunks
    cases hchunks
  obtain ⟨c, hc, hin⟩ := h fallbackCount Sample.circular [] [] 50 0 (by decide) (by decide) hne _ hpara
    "a short closing paragraph".toList (by decide +kernel)
  have htext : c.text ∈ [List.replicate 200 'a'] := hchunks ▸ List.mem_map_of_mem hc
  rw [List.mem_singleton] at htext
  have hchar : 'c' ∈ c.text := hin.subset (by decide)
  rw [htext, List.mem_replicate] at hchar
  exact absurd hchar.2 (by decide)

end Chunker

end ComplianceLoop
