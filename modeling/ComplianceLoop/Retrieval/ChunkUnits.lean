import Mathlib.Data.List.Flatten
import ComplianceLoop.Retrieval.ChunkCoverage
import ComplianceLoop.Transition.Sliding

/-!
# The units of a chunk

A unit is an occurrence of a paragraph, or of a sentence of a large paragraph, by its place in the document. A large
paragraph is a run of its sentences, and the paragraphs between two large ones are a run; `chunk_text` slides a window
over each run. Its chunks are the windows that are long enough, made with the next index (`chunkText_units`). So they
are numbered without gaps (`chunks_numbered`).
-/

set_option autoImplicit false

namespace ComplianceLoop

open PyLib

/-! ## The overlap -/

section

variable {α β : Type} {count : α → Nat}

/-- The item that the loop over `reversed(current)` comes to last. -/
theorem keptItems_concat (budget : Int) (xs : List α) (x : α) : keptItems count budget (xs ++ [x]) =
    if ((xs.map count).sum : Int) < budget then xs ++ [x] else keptItems count budget xs := by
  induction xs generalizing budget with
  | nil =>
    simp only [List.nil_append, List.map_nil, List.sum_nil, keptItems]
    by_cases h : budget ≤ 0
    · rw [if_pos h, if_neg (by omega)]
    · rw [if_neg h, if_pos (by omega)]
  | cons y xs ih =>
    rw [List.cons_append, keptItems, keptItems, ih, List.map_cons, List.sum_cons]
    by_cases h : budget ≤ 0
    · rw [if_pos h, if_pos h, if_neg (by omega)]
    · rw [if_neg h, if_neg h]
      by_cases hrest : ((xs.map count).sum : Int) < budget - count y
      · rw [if_pos hrest, if_pos (by omega)]
      · rw [if_neg hrest, if_neg (by omega)]

/-- The loop keeps the overlap of the window. -/
theorem overlapOf_map {f : β → α} {weight : β → Nat} (hweight : ∀ b, count (f b) = weight b) (overlap : Int)
    (w : List β) : overlapOf count overlap (w.map f) = (Sliding.carry weight overlap w).map f := by
  induction w with
  | nil => rfl
  | cons b w ih =>
    have hsum : (((w.map f).reverse.map count).sum : Int) = Sliding.total weight w := by
      rw [List.map_reverse, List.sum_reverse, List.map_map, Sliding.total]
      exact congrArg (fun ns : List Nat => (ns.sum : Int)) (List.map_congr_left fun b _ => hweight b)
    rw [overlapOf, List.map_cons, List.reverse_cons, keptItems_concat, hsum, Sliding.carry]
    split
    · simp
    · exact ih

end

/-! ## Units and runs -/

/-- An occurrence of a paragraph, or of a sentence of a large paragraph. -/
structure ChunkUnit where
  para : Nat
  sent : Option Nat
  text : Text
  deriving DecidableEq

/-- The paragraph as a unit. -/
def paragraphUnit (p : Nat × Text) : ChunkUnit := ⟨p.1, none, p.2⟩

/-- The sentences of a paragraph as units. -/
def sentenceUnits (p : Nat × Text) : List ChunkUnit :=
  (splitIntoSentences p.2).zipIdx.map fun s => ⟨p.1, some s.2, s.1⟩

/-- The text of a window: its sentences with blanks between them, or its paragraphs with empty lines. -/
def joined : List ChunkUnit → Text
  | [] => []
  | u :: w => (if u.sent.isSome then [' '] else "\n\n".toList).intercalate ((u :: w).map ChunkUnit.text)

namespace Chunker

section

variable (chunker : Chunker) (text sourceDocumentId sourceUrl : Text) (size overlap : Int)

/-- The tokens of a unit. -/
def weight (u : ChunkUnit) : Nat := chunker.countTokens u.text

/-- The runs before the current one, and the current run of paragraphs, with one more paragraph. -/
def addParagraph (runs : List (List ChunkUnit) × List ChunkUnit) (p : Nat × Text) :
    List (List ChunkUnit) × List ChunkUnit :=
  if size < chunker.countTokens p.2 then (runs.1 ++ [runs.2, sentenceUnits p], [])
  else (runs.1, runs.2 ++ [paragraphUnit p])

/-- The paragraphs of a text, with their indices. -/
def paragraphsOf (text : Text) : List (Nat × Text) :=
  (splitIntoParagraphs (normaliseWhitespace text)).zipIdx.map Prod.swap

/-- The runs of a text. -/
def unitRuns : List (List ChunkUnit) :=
  let runs := (paragraphsOf text).foldl (chunker.addParagraph size) ([], [])
  runs.1 ++ [runs.2]

/-- The windows of a run. -/
def windowsOf (run : List ChunkUnit) : List (List ChunkUnit) := (Sliding.slide chunker.weight size overlap run).all

/-- The window is long enough for a chunk. -/
def keeps (w : List ChunkUnit) : Bool := chunker.longEnough (joined w)

/-- The units of the chunks. -/
def chunkUnits : List (List ChunkUnit) :=
  ((chunker.unitRuns text size).flatMap (chunker.windowsOf size overlap)).filter chunker.keeps

/-- The chunk of a window. -/
def makeUnits (w : List ChunkUnit) (chunkIndex : Nat) : Option TextChunk :=
  match w with
  | [] => none
  | u :: _ =>
    if u.sent.isSome then chunker.makeSentenceChunk text sourceDocumentId sourceUrl (w.map ChunkUnit.text) chunkIndex
    else chunker.makeChunk text sourceDocumentId sourceUrl (w.map fun u => (u.para, u.text)) chunkIndex

/-! ## The chunk of a window -/

theorem makeUnits_paragraphs {w : List ChunkUnit} (hne : w ≠ []) (hw : ∀ u ∈ w, u.sent = none) (i : Nat) :
    chunker.makeUnits text sourceDocumentId sourceUrl w i =
      chunker.makeChunk text sourceDocumentId sourceUrl (w.map fun u => (u.para, u.text)) i := by
  obtain ⟨u, rest, rfl⟩ := List.exists_cons_of_ne_nil hne
  have hu : u.sent.isSome = false := by rw [hw u List.mem_cons_self]; rfl
  rw [makeUnits, if_neg (by rw [hu]; exact Bool.false_ne_true)]

theorem makeUnits_sentences {w : List ChunkUnit} (hne : w ≠ []) (hw : ∀ u ∈ w, u.sent.isSome = true) (i : Nat) :
    chunker.makeUnits text sourceDocumentId sourceUrl w i =
      chunker.makeSentenceChunk text sourceDocumentId sourceUrl (w.map ChunkUnit.text) i := by
  obtain ⟨u, rest, rfl⟩ := List.exists_cons_of_ne_nil hne
  rw [makeUnits, if_pos (hw u List.mem_cons_self)]

/-- A window has a chunk with its text if it is long enough. -/
theorem map_text_makeUnits {w : List ChunkUnit} (hne : w ≠ []) (i : Nat) :
    (chunker.makeUnits text sourceDocumentId sourceUrl w i).map TextChunk.text =
      if chunker.keeps w then some (joined w) else none := by
  obtain ⟨u, rest, rfl⟩ := List.exists_cons_of_ne_nil hne
  unfold makeUnits keeps joined
  dsimp only
  split
  · exact chunker.makes_makeSentenceChunk text sourceDocumentId sourceUrl _ i (by simp)
  · rw [chunker.makes_makeChunk text sourceDocumentId sourceUrl _ i (by simp)]
    simp only [List.map_map, Function.comp_def]

/-- The chunk has this index, and enough tokens. -/
structure Numbered (i : Nat) (c : TextChunk) : Prop where
  chunkIndex : c.chunkIndex = i
  tokenCount : c.tokenCount = chunker.countTokens c.text
  longEnough : (chunker.minChunkSizeTokens : Int) ≤ c.tokenCount

theorem numbered_makeChunk {paras : List (Nat × Text)} {i : Nat} {c : TextChunk}
    (h : chunker.makeChunk text sourceDocumentId sourceUrl paras i = some c) : chunker.Numbered i c := by
  unfold makeChunk at h
  split at h
  · cases h
  · dsimp only at h
    split at h
    · cases h
    · rename_i hlong
      obtain rfl := Option.some.inj h
      exact ⟨rfl, rfl, Int.ofNat_le.mpr (Nat.not_lt.mp hlong)⟩

theorem numbered_makeSentenceChunk {sents : List Text} {i : Nat} {c : TextChunk}
    (h : chunker.makeSentenceChunk text sourceDocumentId sourceUrl sents i = some c) : chunker.Numbered i c := by
  unfold makeSentenceChunk at h
  dsimp only at h
  split at h
  · rename_i hlong
    obtain rfl := Option.some.inj h
    exact ⟨rfl, rfl, Int.ofNat_le.mpr hlong⟩
  · cases h

theorem numbered_makeUnits {w : List ChunkUnit} {i : Nat} {c : TextChunk}
    (h : chunker.makeUnits text sourceDocumentId sourceUrl w i = some c) : chunker.Numbered i c := by
  unfold makeUnits at h
  split at h
  · cases h
  · split at h
    · exact chunker.numbered_makeSentenceChunk text sourceDocumentId sourceUrl h
    · exact chunker.numbered_makeChunk text sourceDocumentId sourceUrl h

theorem text_of_makeUnits {w : List ChunkUnit} {i : Nat} {c : TextChunk}
    (h : chunker.makeUnits text sourceDocumentId sourceUrl w i = some c) : c.text = joined w := by
  have hne : w ≠ [] := by
    rintro rfl
    cases h
  have htext := chunker.map_text_makeUnits text sourceDocumentId sourceUrl hne i
  rw [h] at htext
  split at htext
  · exact Option.some.inj htext
  · cases htext

/-! ## What the loops emit -/

/-- The emitted chunks are those of the windows that are long enough, numbered from `start`. -/
structure Emits (start : Nat) (ws : List (List ChunkUnit)) (e : Emitted) : Prop where
  chunks : e.chunks.map some = ((ws.filter chunker.keeps).zipIdx start).map fun p =>
    chunker.makeUnits text sourceDocumentId sourceUrl p.1 p.2
  chunkIndex : e.chunkIndex = start + (ws.filter chunker.keeps).length

variable {chunker text sourceDocumentId sourceUrl size overlap} {start : Nat} {ws ws' : List (List ChunkUnit)}
  {e e' : Emitted}

theorem Emits.length (h : chunker.Emits text sourceDocumentId sourceUrl start ws e) :
    e.chunks.length = (ws.filter chunker.keeps).length := by
  simpa using congrArg List.length h.chunks

theorem Emits.append (h : chunker.Emits text sourceDocumentId sourceUrl start ws e)
    (h' : chunker.Emits text sourceDocumentId sourceUrl e.chunkIndex ws' e') :
    chunker.Emits text sourceDocumentId sourceUrl start (ws ++ ws')
      ⟨e.chunks ++ e'.chunks, e.chunkIndex + e'.chunks.length⟩ := by
  refine ⟨?_, ?_⟩
  · show (e.chunks ++ e'.chunks).map some = _
    rw [List.map_append, h.chunks, h'.chunks, h.chunkIndex, List.filter_append, List.zipIdx_append, List.map_append]
  · show e.chunkIndex + e'.chunks.length = _
    rw [h.chunkIndex, h'.length, List.filter_append, List.length_append, Nat.add_assoc]

/-- One more window. -/
theorem Emits.add (h : chunker.Emits text sourceDocumentId sourceUrl start ws e) {w : List ChunkUnit} (hne : w ≠ []) :
    chunker.Emits text sourceDocumentId sourceUrl start (ws ++ [w])
      (e.add (chunker.makeUnits text sourceDocumentId sourceUrl w e.chunkIndex)) := by
  have htext := chunker.map_text_makeUnits text sourceDocumentId sourceUrl hne e.chunkIndex
  cases hmake : chunker.makeUnits text sourceDocumentId sourceUrl w e.chunkIndex with
  | none =>
    have hdrop : chunker.keeps w = false := by
      rw [hmake] at htext
      exact Bool.eq_false_iff.mpr fun hkeep => by rw [if_pos hkeep] at htext; cases htext
    have hfilter : (ws ++ [w]).filter chunker.keeps = ws.filter chunker.keeps := by
      rw [List.filter_append, List.filter_cons_of_neg (by simp [hdrop]), List.filter_nil, List.append_nil]
    exact ⟨hfilter ▸ h.chunks, hfilter ▸ h.chunkIndex⟩
  | some c =>
    have hkeep : chunker.keeps w = true := by
      by_contra hdrop
      rw [hmake, if_neg hdrop] at htext
      cases htext
    have hone : chunker.Emits text sourceDocumentId sourceUrl e.chunkIndex [w] ⟨[c], e.chunkIndex + 1⟩ := by
      refine ⟨?_, ?_⟩
      · rw [List.filter_cons_of_pos hkeep, List.filter_nil, List.zipIdx_singleton, List.map_singleton,
          List.map_singleton, hmake]
      · rw [List.filter_cons_of_pos hkeep, List.filter_nil, List.length_singleton]
    exact h.append hone

/-- A loop has gone over the run `us`, after the windows `ws`. -/
structure Follows {α : Type} (chunker : Chunker) (text sourceDocumentId sourceUrl : Text) (size overlap : Int)
    (f : ChunkUnit → α) (start : Nat) (ws : List (List ChunkUnit)) (us : List ChunkUnit) (s : Windowed α) : Prop where
  emitted : chunker.Emits text sourceDocumentId sourceUrl start
    (ws ++ (Sliding.slide chunker.weight size overlap us).closed) s.emitted
  current : s.current = (Sliding.slide chunker.weight size overlap us).opened.map f
  currentTokens : s.currentTokens = Sliding.total chunker.weight (Sliding.slide chunker.weight size overlap us).opened

section

variable {α : Type} {f : ChunkUnit → α} {us : List ChunkUnit} {s : Windowed α} {make : List α → Nat → Option TextChunk}

theorem Follows.init (h : chunker.Emits text sourceDocumentId sourceUrl start ws e) :
    chunker.Follows text sourceDocumentId sourceUrl size overlap f start ws [] ⟨e, [], 0⟩ :=
  ⟨by rwa [show (Sliding.slide chunker.weight size overlap []).closed = [] from rfl, List.append_nil], rfl, rfl⟩

/-- The loop makes the chunks of the windows of the run. -/
def MakesUnits (chunker : Chunker) (text sourceDocumentId sourceUrl : Text) (f : ChunkUnit → α)
    (make : List α → Nat → Option TextChunk) (us : List ChunkUnit) : Prop :=
  ∀ w, w ≠ [] → w ⊆ us → ∀ i, make (w.map f) i = chunker.makeUnits text sourceDocumentId sourceUrl w i

/-- One more unit. -/
theorem Follows.push (h : chunker.Follows text sourceDocumentId sourceUrl size overlap f start ws us s)
    {count : α → Nat} (hcount : ∀ u, count (f u) = chunker.weight u) {u : ChunkUnit}
    (hmake : chunker.MakesUnits text sourceDocumentId sourceUrl f make (us ++ [u])) :
    chunker.Follows text sourceDocumentId sourceUrl size overlap f start ws (us ++ [u])
      (s.push count make size overlap (f u)) := by
  have hcurrent : s.current ++ [f u] = ((Sliding.slide chunker.weight size overlap us).opened ++ [u]).map f := by
    rw [h.current, List.map_append, List.map_singleton]
  have htokens : s.currentTokens + count (f u) =
      Sliding.total chunker.weight ((Sliding.slide chunker.weight size overlap us).opened ++ [u]) := by
    rw [h.currentTokens, hcount, Sliding.total_append, Sliding.total_cons, Sliding.total_nil, Nat.add_zero]
  unfold Windowed.push
  dsimp only
  rw [hcurrent, htokens]
  by_cases hfull : size ≤ Sliding.total chunker.weight ((Sliding.slide chunker.weight size overlap us).opened ++ [u])
  · have hne : (Sliding.slide chunker.weight size overlap us).opened ++ [u] ≠ [] := by simp
    have hsub : (Sliding.slide chunker.weight size overlap us).opened ++ [u] ⊆ us ++ [u] :=
      List.append_subset.mpr ⟨fun v hv => List.mem_append_left _ ((Sliding.opened_suffix us).subset hv),
        List.subset_append_right us [u]⟩
    have hslide := Sliding.slide_concat_full hfull
    rw [if_pos hfull]
    refine ⟨?_, ?_, ?_⟩
    · rw [hslide, ← List.append_assoc]
      show chunker.Emits text sourceDocumentId sourceUrl start _ (s.emitted.add (make _ s.emitted.chunkIndex))
      rw [hmake _ hne hsub]
      exact h.emitted.add hne
    · rw [hslide]
      exact overlapOf_map hcount overlap _
    · rw [hslide]
      show ((overlapOf count overlap _).map count).sum = _
      rw [overlapOf_map hcount, List.map_map, Sliding.total]
      exact congrArg List.sum (List.map_congr_left fun v _ => hcount v)
  · have hslide := Sliding.slide_concat_room hfull
    rw [if_neg hfull]
    exact ⟨hslide ▸ h.emitted, by rw [hslide], by rw [hslide]⟩

/-- The window that is left at the end. -/
theorem Follows.flush (h : chunker.Follows text sourceDocumentId sourceUrl size overlap f start ws us s)
    (hmake : chunker.MakesUnits text sourceDocumentId sourceUrl f make us) :
    chunker.Emits text sourceDocumentId sourceUrl start (ws ++ chunker.windowsOf size overlap us) (s.flush make) := by
  unfold windowsOf Sliding.Windows.all Windowed.flush
  rw [h.current, List.isEmpty_map]
  split
  · exact h.emitted
  · rename_i hne
    have hopened : (Sliding.slide chunker.weight size overlap us).opened ≠ [] := by simpa using hne
    rw [← List.append_assoc, Windowed.emit, h.current, hmake _ hopened (Sliding.opened_suffix us).subset]
    exact h.emitted.add hopened

/-- A loop over a whole run. -/
theorem Follows.foldl {count : α → Nat} (hcount : ∀ u, count (f u) = chunker.weight u)
    (h : chunker.Emits text sourceDocumentId sourceUrl start ws e)
    (hmake : chunker.MakesUnits text sourceDocumentId sourceUrl f make us) :
    chunker.Follows text sourceDocumentId sourceUrl size overlap f start ws us
      ((us.map f).foldl (Windowed.push count make size overlap) ⟨e, [], 0⟩) := by
  induction us using List.reverseRecOn with
  | nil => exact .init h
  | append_singleton us u ih =>
    rw [List.map_append, List.foldl_append]
    exact (ih fun w hne hsub => hmake w hne (List.Subset.trans hsub (List.subset_append_left us [u]))).push hcount hmake

end

/-! ## The loops of the chunker -/

theorem makesUnits_paragraphs (chunker : Chunker) (text sourceDocumentId sourceUrl : Text) {us : List ChunkUnit}
    (h : ∀ u ∈ us, u.sent = none) :
    chunker.MakesUnits text sourceDocumentId sourceUrl (fun u => (u.para, u.text))
      (chunker.makeChunk text sourceDocumentId sourceUrl) us := fun _ hne hsub i =>
  (chunker.makeUnits_paragraphs text sourceDocumentId sourceUrl hne (fun u hu => h u (hsub hu)) i).symm

theorem makesUnits_sentences (chunker : Chunker) (text sourceDocumentId sourceUrl : Text) {us : List ChunkUnit}
    (h : ∀ u ∈ us, u.sent.isSome = true) :
    chunker.MakesUnits text sourceDocumentId sourceUrl ChunkUnit.text
      (chunker.makeSentenceChunk text sourceDocumentId sourceUrl) us := fun _ hne hsub i =>
  (chunker.makeUnits_sentences text sourceDocumentId sourceUrl hne (fun u hu => h u (hsub hu)) i).symm

theorem isSome_of_mem_sentenceUnits {p : Nat × Text} {u : ChunkUnit} (h : u ∈ sentenceUnits p) :
    u.sent.isSome = true := by
  obtain ⟨s, -, rfl⟩ := List.mem_map.mp h
  rfl

theorem map_text_sentenceUnits (p : Nat × Text) : (sentenceUnits p).map ChunkUnit.text = splitIntoSentences p.2 := by
  rw [sentenceUnits, List.map_map]
  exact List.zipIdx_map_fst 0 _

/-- The chunks of a large paragraph are those of the windows of its sentences. -/
theorem chunkLargeParagraph_emits (chunker : Chunker) (text sourceDocumentId sourceUrl : Text) (size overlap : Int)
    (p : Nat × Text) (chunkIndex : Nat) :
    ∃ e, chunker.Emits text sourceDocumentId sourceUrl chunkIndex
        (chunker.windowsOf size overlap (sentenceUnits p)) e ∧
      e.chunks = chunker.chunkLargeParagraph text sourceDocumentId sourceUrl size overlap p.2 chunkIndex := by
  have hmake : chunker.MakesUnits text sourceDocumentId sourceUrl ChunkUnit.text
      (chunker.makeSentenceChunk text sourceDocumentId sourceUrl) (sentenceUnits p) :=
    chunker.makesUnits_sentences text sourceDocumentId sourceUrl fun _ hu => isSome_of_mem_sentenceUnits hu
  have hempty : chunker.Emits text sourceDocumentId sourceUrl chunkIndex [] ⟨[], chunkIndex⟩ := ⟨rfl, rfl⟩
  have hloop : chunker.Follows text sourceDocumentId sourceUrl size overlap ChunkUnit.text chunkIndex []
      (sentenceUnits p) (((sentenceUnits p).map ChunkUnit.text).foldl (Windowed.push chunker.countTokens
        (chunker.makeSentenceChunk text sourceDocumentId sourceUrl) size overlap) ⟨⟨[], chunkIndex⟩, [], 0⟩) :=
    .foldl (fun _ => rfl) hempty hmake
  rw [map_text_sentenceUnits] at hloop
  have hflush := hloop.flush hmake
  rw [List.nil_append] at hflush
  exact ⟨_, hflush, by unfold chunkLargeParagraph; rfl⟩

/-- The loop of `chunk_text` has gone over these runs. -/
structure FollowsRuns (chunker : Chunker) (text sourceDocumentId sourceUrl : Text) (size overlap : Int)
    (runs : List (List ChunkUnit) × List ChunkUnit) (s : Windowed (Nat × Text)) : Prop where
  follows : chunker.Follows text sourceDocumentId sourceUrl size overlap (fun u => (u.para, u.text)) 0
    (runs.1.flatMap (chunker.windowsOf size overlap)) runs.2 s
  paragraphs : ∀ u ∈ runs.2, u.sent = none

/-- One more paragraph. -/
theorem FollowsRuns.chunkParagraph {runs : List (List ChunkUnit) × List ChunkUnit} {s : Windowed (Nat × Text)}
    (h : chunker.FollowsRuns text sourceDocumentId sourceUrl size overlap runs s) (p : Nat × Text) :
    chunker.FollowsRuns text sourceDocumentId sourceUrl size overlap (chunker.addParagraph size runs p)
      (chunker.chunkParagraph text sourceDocumentId sourceUrl size overlap s p) := by
  unfold Chunker.chunkParagraph addParagraph
  dsimp only
  split
  · -- the window is flushed, and the windows of the sentences follow it
    have hflush := h.follows.flush (chunker.makesUnits_paragraphs text sourceDocumentId sourceUrl h.paragraphs)
    obtain ⟨e, he, hchunks⟩ := chunker.chunkLargeParagraph_emits text sourceDocumentId sourceUrl size overlap p
      (s.flush (chunker.makeChunk text sourceDocumentId sourceUrl)).chunkIndex
    have hboth := hflush.append he
    rw [hchunks] at hboth
    refine ⟨⟨?_, rfl, ?_⟩, fun u hu => absurd hu List.not_mem_nil⟩
    · rw [List.flatMap_append, List.flatMap_cons, List.flatMap_singleton, ← List.append_assoc]
      show chunker.Emits text sourceDocumentId sourceUrl 0 (_ ++ []) _
      rw [List.append_nil]
      exact hboth
    · show (if s.current.isEmpty then s.currentTokens else 0) = 0
      split
      · rename_i hempty
        rw [h.follows.current, List.isEmpty_iff, List.map_eq_nil_iff] at hempty
        rw [h.follows.currentTokens, hempty]
        rfl
      · rfl
  · have hparagraphs : ∀ u ∈ runs.2 ++ [paragraphUnit p], u.sent = none := by
      intro u hu
      obtain hu | hu := List.mem_append.mp hu
      · exact h.paragraphs u hu
      · rw [List.mem_singleton.mp hu]
        rfl
    exact ⟨h.follows.push (fun _ => rfl) (chunker.makesUnits_paragraphs text sourceDocumentId sourceUrl hparagraphs),
      hparagraphs⟩

variable (chunker text sourceDocumentId sourceUrl size overlap)

/-- **The chunks are those of the windows that are long enough, with their indices.** -/
theorem chunkText_units :
    (chunker.chunkText text sourceDocumentId sourceUrl size overlap).map some =
      (chunker.chunkUnits text size overlap).zipIdx.map fun p =>
        chunker.makeUnits (normaliseWhitespace text) sourceDocumentId sourceUrl p.1 p.2 := by
  unfold chunkText
  split
  · rename_i hblank
    unfold chunkUnits unitRuns paragraphsOf
    rw [paragraphs_of_blank (List.isEmpty_iff.mp hblank)]
    rfl
  · have hstart : chunker.FollowsRuns (normaliseWhitespace text) sourceDocumentId sourceUrl size overlap ([], [])
        ⟨⟨[], 0⟩, [], 0⟩ := ⟨.init ⟨rfl, rfl⟩, fun u hu => absurd hu List.not_mem_nil⟩
    have hloop := List.foldl_rel (l := paragraphsOf text) hstart fun p _ _ _ h => h.chunkParagraph p
    have hflush := hloop.follows.flush
      (chunker.makesUnits_paragraphs (normaliseWhitespace text) sourceDocumentId sourceUrl hloop.paragraphs)
    have hchunks := hflush.chunks
    unfold chunkUnits unitRuns
    rw [List.flatMap_append, List.flatMap_singleton]
    exact hchunks

/-- The units of one of the chunks. -/
theorem unitsAt {i : Nat} {c : TextChunk}
    (h : (chunker.chunkText text sourceDocumentId sourceUrl size overlap)[i]? = some c) :
    ∃ w, (chunker.chunkUnits text size overlap)[i]? = some w ∧
      chunker.makeUnits (normaliseWhitespace text) sourceDocumentId sourceUrl w i = some c := by
  have hunits := congrArg (·[i]?) (chunker.chunkText_units text sourceDocumentId sourceUrl size overlap)
  simp only [List.getElem?_map, h, List.getElem?_zipIdx, Option.map_some] at hunits
  obtain ⟨p, hp, hmake⟩ := Option.map_eq_some_iff.mp hunits.symm
  obtain ⟨w, hw, rfl⟩ := Option.map_eq_some_iff.mp hp
  exact ⟨w, hw, by simpa using hmake⟩

/-- **The chunks are numbered without gaps, and each of them has enough tokens.** -/
theorem chunks_numbered :
    (chunker.chunkText text sourceDocumentId sourceUrl size overlap).map TextChunk.chunkIndex =
        (List.range (chunker.chunkText text sourceDocumentId sourceUrl size overlap).length).map Int.ofNat ∧
      ∀ c ∈ chunker.chunkText text sourceDocumentId sourceUrl size overlap,
        c.tokenCount = chunker.countTokens c.text ∧ (chunker.minChunkSizeTokens : Int) ≤ c.tokenCount := by
  have hat : ∀ i c, (chunker.chunkText text sourceDocumentId sourceUrl size overlap)[i]? = some c →
      chunker.Numbered i c := by
    intro i c hc
    obtain ⟨w, -, hmake⟩ := chunker.unitsAt text sourceDocumentId sourceUrl size overlap hc
    exact chunker.numbered_makeUnits _ sourceDocumentId sourceUrl hmake
  refine ⟨List.ext_getElem? fun i => ?_, fun c hc => ?_⟩
  · rw [List.getElem?_map, List.getElem?_map]
    cases hc : (chunker.chunkText text sourceDocumentId sourceUrl size overlap)[i]? with
    | none =>
      rw [List.getElem?_eq_none (by simpa using List.getElem?_eq_none_iff.mp hc)]
      rfl
    | some c =>
      rw [List.getElem?_range (List.getElem?_eq_some_iff.mp hc).1]
      exact congrArg some (hat i c hc).chunkIndex
  · obtain ⟨i, hi⟩ := List.mem_iff_getElem?.mp hc
    exact ⟨(hat i c hi).tokenCount, (hat i c hi).longEnough⟩

/-- The window before a large paragraph is too short for a chunk, and the sentences of the paragraph are numbered as
if it were not there. -/
example :
    let text := "a short opening paragraph\n\n".toList ++ List.replicate 210 'a' ++ ". ".toList ++
      List.replicate 230 'B' ++ "\n\n".toList ++ List.replicate 200 'c'
    (Sample.fallback.chunkText text [] [] 50 0).map (fun c => (c.chunkIndex, c.tokenCount)) =
      [(0, 52), (1, 57), (2, 50)] := by
  decide +kernel

/-! ## The units of a text -/

/-- The units of a paragraph. -/
def paragraphUnits (p : Nat × Text) : List ChunkUnit :=
  if size < chunker.countTokens p.2 then sentenceUnits p else [paragraphUnit p]

/-- The runs have the units of the paragraphs in their order. -/
theorem flatten_unitRuns :
    (chunker.unitRuns text size).flatten = (paragraphsOf text).flatMap (chunker.paragraphUnits size) := by
  have hloop : ∀ (ps : List (Nat × Text)) (runs : List (List ChunkUnit) × List ChunkUnit),
      ((ps.foldl (chunker.addParagraph size) runs).1 ++ [(ps.foldl (chunker.addParagraph size) runs).2]).flatten =
        (runs.1 ++ [runs.2]).flatten ++ ps.flatMap (chunker.paragraphUnits size) := by
    intro ps
    induction ps with
    | nil => exact fun runs => (List.append_nil _).symm
    | cons p ps ih =>
      intro runs
      rw [List.foldl_cons, ih, List.flatMap_cons, paragraphUnits, addParagraph]
      split
      · simp
      · simp
  unfold unitRuns
  dsimp only
  rw [hloop]
  simp only [List.nil_append, List.flatten_singleton]

theorem para_of_mem_paragraphUnits {p : Nat × Text} {u : ChunkUnit} (h : u ∈ chunker.paragraphUnits size p) :
    u.para = p.1 := by
  unfold paragraphUnits at h
  split at h
  · obtain ⟨s, -, rfl⟩ := List.mem_map.mp h
    rfl
  · rw [List.mem_singleton.mp h]
    rfl

theorem nodup_paragraphUnits (p : Nat × Text) : (chunker.paragraphUnits size p).Nodup := by
  unfold paragraphUnits
  split
  · -- the sentences have different indices
    have hindices : ((sentenceUnits p).map ChunkUnit.sent).Nodup := by
      have hmap : (sentenceUnits p).map ChunkUnit.sent = ((splitIntoSentences p.2).zipIdx.map Prod.snd).map some := by
        rw [sentenceUnits, List.map_map, List.map_map]
        rfl
      rw [hmap, List.zipIdx_map_snd]
      exact (List.nodup_range' ..).map (Option.some_injective _)
    exact hindices.of_map _
  · exact List.nodup_singleton _

/-- No unit occurs twice. -/
theorem nodup_units : (chunker.unitRuns text size).flatten.Nodup := by
  rw [flatten_unitRuns, List.nodup_flatMap]
  refine ⟨fun p _ => chunker.nodup_paragraphUnits size p, ?_⟩
  have hindices : ((paragraphsOf text).map Prod.fst).Nodup := by
    have hmap : (paragraphsOf text).map Prod.fst =
        (splitIntoParagraphs (normaliseWhitespace text)).zipIdx.map Prod.snd := by
      rw [paragraphsOf, List.map_map]
      rfl
    rw [hmap, List.zipIdx_map_snd]
    exact List.nodup_range' ..
  refine (List.pairwise_map.mp hindices).imp fun {p q} hne u hp hq => hne ?_
  rw [← chunker.para_of_mem_paragraphUnits size hp, ← chunker.para_of_mem_paragraphUnits size hq]

variable {chunker text size overlap}

/-- A paragraph of a run is not large. -/
theorem weight_le_of_paragraph {run : List ChunkUnit} {u : ChunkUnit} (hrun : run ∈ chunker.unitRuns text size)
    (hu : u ∈ run) (hpara : u.sent = none) : (chunker.weight u : Int) ≤ size := by
  have hmem : u ∈ (chunker.unitRuns text size).flatten := List.mem_flatten.mpr ⟨run, hrun, hu⟩
  rw [flatten_unitRuns] at hmem
  obtain ⟨p, -, hp⟩ := List.mem_flatMap.mp hmem
  unfold paragraphUnits at hp
  split at hp
  · have hsome := isSome_of_mem_sentenceUnits hp
    rw [hpara] at hsome
    cases hsome
  · rename_i hsmall
    rw [List.mem_singleton.mp hp]
    exact Int.not_lt.mp hsmall

theorem nodup_of_mem_unitRuns {run : List ChunkUnit} (hrun : run ∈ chunker.unitRuns text size) : run.Nodup :=
  (List.nodup_flatten.mp (chunker.nodup_units text size)).1 run hrun

/-! ## The windows of the chunks -/

theorem mem_chunkUnits {w : List ChunkUnit} : w ∈ chunker.chunkUnits text size overlap ↔
    ∃ run ∈ chunker.unitRuns text size, w ∈ chunker.windowsOf size overlap run ∧ chunker.keeps w = true := by
  rw [chunkUnits, List.mem_filter, List.mem_flatMap]
  constructor
  · rintro ⟨⟨run, hrun, hw⟩, hkeep⟩
    exact ⟨run, hrun, hw, hkeep⟩
  · rintro ⟨run, hrun, hw, hkeep⟩
    exact ⟨⟨run, hrun, hw⟩, hkeep⟩

/-- The chunk of one of the windows. -/
theorem chunkAt {i : Nat} {w : List ChunkUnit} (h : (chunker.chunkUnits text size overlap)[i]? = some w) :
    ∃ c, (chunker.chunkText text sourceDocumentId sourceUrl size overlap)[i]? = some c ∧
      chunker.makeUnits (normaliseWhitespace text) sourceDocumentId sourceUrl w i = some c := by
  have hunits := congrArg (·[i]?) (chunker.chunkText_units text sourceDocumentId sourceUrl size overlap)
  simp only [List.getElem?_map, h, List.getElem?_zipIdx, Option.map_some, Nat.zero_add] at hunits
  obtain ⟨c, hc, hmake⟩ := Option.map_eq_some_iff.mp hunits
  exact ⟨c, hc, hmake.symm⟩

end

end Chunker

end ComplianceLoop
