import ComplianceLoop.Retrieval.ChunkUnits

/-!
# The token budget

`chunk_size_tokens` is documented as the maximum of a chunk, and the tests allow it to be exceeded by a fifth. But a
window is closed after the unit was added that fills it. Where the windows start follows from the sizes of the units,
and so does how large they get at most: the chunks keep to the budget when these sizes fit with the separators, and
only when they fit with as many tokens as the counter adds for a separator (`withinBudget_iff`). A counter that saves
tokens of the units may keep to it with any sizes (`sizes_do_not_decide`).
-/

set_option autoImplicit false

namespace ComplianceLoop

open PyLib

namespace Chunker

/-- Joining two texts with a separator of the chunker adds at most the characters of the separator. -/
def Subadditive (countTokens : Text → Nat) : Prop :=
  ∀ a b sep, sep = [' '] ∨ sep = "\n\n".toList →
    countTokens (a ++ sep ++ b) ≤ countTokens a + countTokens b + sep.length

theorem subadditive_fallbackCount : Subadditive fallbackCount := by
  intro a b sep hsep
  have hlength : 1 ≤ sep.length ∧ sep.length ≤ 2 := by
    obtain rfl | rfl := hsep
    · decide
    · decide
  unfold fallbackCount
  rw [List.length_append, List.length_append]
  omega

/-- The tokens of the units from `i` on and before `j`, and of the separators between them. -/
def joinedSpan (ns : List Nat) (sep i j : Nat) : Nat := Sliding.span ns i j + sep * (j - i - 1)

/-- The characters between two units of a run: a blank between sentences, an empty line between paragraphs. -/
def joint : List ChunkUnit → Nat
  | [] => 0
  | u :: _ => if u.sent.isSome then 1 else 2

section

variable (chunker : Chunker) (text sourceDocumentId sourceUrl : Text) (size overlap : Int)

/-- The tokens of the units, and `sep` tokens between two of them. -/
def joinedTotal (sep : Nat) (w : List ChunkUnit) : Nat := Sliding.total chunker.weight w + sep * (w.length - 1)

/-- Together the units have at most the allowed tokens. -/
def JoinsFit (w : List ChunkUnit) : Prop := 10 * (chunker.countTokens (joined w) : Int) ≤ 12 * size

/-- Each chunk has at most the allowed tokens, unless it is a single sentence that is larger than a chunk. -/
def WithinBudget : Prop :=
  ∀ (i : Nat) (c : TextChunk), (chunker.chunkText text sourceDocumentId sourceUrl size overlap)[i]? = some c →
    10 * c.tokenCount ≤ 12 * size ∨
      ∃ u, (chunker.chunkUnits text size overlap)[i]? = some [u] ∧ u.sent.isSome = true ∧ size < chunker.weight u

/-- Units of these sizes, with `sep` tokens between two of them, fit into the windows that the sizes give. -/
structure SpansFit (ns : List Nat) (sep : Nat) (size overlap : Int) : Prop where
  /-- Each unit that fills a window fits in with the units before it. -/
  fills : ∀ j < ns.length, Sliding.start ns size overlap j < j →
    size ≤ Sliding.span ns (Sliding.start ns size overlap j) (j + 1) →
      10 * (joinedSpan ns sep (Sliding.start ns size overlap j) (j + 1) : Int) ≤ 12 * size
  /-- The units that are left at the end fit together. -/
  rest : Sliding.start ns size overlap ns.length + 2 ≤ ns.length →
    10 * (joinedSpan ns sep (Sliding.start ns size overlap ns.length) ns.length : Int) ≤ 12 * size

instance (ns : List Nat) (sep : Nat) (size overlap : Int) : Decidable (SpansFit ns sep size overlap) :=
  decidable_of_iff (_ ∧ _) ⟨fun h => ⟨h.1, h.2⟩, fun h => ⟨h.fills, h.rest⟩⟩

/-- In each run, the units have sizes that fit with these separators. -/
def SizesFit (sep : List ChunkUnit → Nat) : Prop :=
  ∀ run ∈ chunker.unitRuns text size, SpansFit (run.map chunker.weight) (sep run) size overlap

instance (sep : List ChunkUnit → Nat) : Decidable (chunker.SizesFit text size overlap sep) :=
  inferInstanceAs (Decidable (∀ run ∈ chunker.unitRuns text size, _))

/-- Joining units of a run saves none of their tokens, and adds these for the separators. -/
def JoinsAdd (sep : List ChunkUnit → Nat) : Prop :=
  ∀ run ∈ chunker.unitRuns text size, ∀ w, w ≠ [] → w <:+: run →
    chunker.joinedTotal (sep run) w ≤ chunker.countTokens (joined w)

variable {chunker text sourceDocumentId sourceUrl size overlap}

/-! ## The sizes of a run -/

/-- Joining units adds at most the separators to their tokens. -/
theorem countTokens_joined_le (h : Subadditive chunker.countTokens) {w : List ChunkUnit} (hne : w ≠ []) :
    chunker.countTokens (joined w) ≤ chunker.joinedTotal (joint w) w := by
  have hloop : ∀ {sep : Text}, sep = [' '] ∨ sep = "\n\n".toList → ∀ (u : ChunkUnit) (w : List ChunkUnit),
      chunker.countTokens (sep.intercalate ((u :: w).map ChunkUnit.text)) ≤
        Sliding.total chunker.weight (u :: w) + sep.length * w.length := by
    intro sep hsep u w
    induction w generalizing u with
    | nil =>
      rw [List.map_singleton, List.intercalate_singleton]
      exact Nat.le_refl _
    | cons v w ih =>
      have hjoin : sep.intercalate ((u :: v :: w).map ChunkUnit.text) =
          u.text ++ sep ++ sep.intercalate ((v :: w).map ChunkUnit.text) := by
        rw [List.map_cons, List.map_cons, List.intercalate_cons_cons]
      have hcount := h u.text (sep.intercalate ((v :: w).map ChunkUnit.text)) sep hsep
      have hrest := ih v
      rw [hjoin, Sliding.total_cons, List.length_cons, Nat.mul_succ]
      have hweight : chunker.weight u = chunker.countTokens u.text := rfl
      omega
  obtain ⟨u, w, rfl⟩ := List.exists_cons_of_ne_nil hne
  rw [joinedTotal, joint, joined, List.length_cons, Nat.add_sub_cancel]
  split
  · exact hloop (.inl rfl) u w
  · exact hloop (.inr rfl) u w

/-- The units are all sentences, or all paragraphs. -/
def Alike (us : List ChunkUnit) : Prop := (∀ u ∈ us, u.sent.isSome = true) ∨ ∀ u ∈ us, u.sent.isSome = false

/-- The runs have units of one kind, and the current one has paragraphs. -/
structure AlikeRuns (runs : List (List ChunkUnit) × List ChunkUnit) : Prop where
  closed : ∀ us ∈ runs.1, Alike us
  current : ∀ u ∈ runs.2, u.sent.isSome = false

/-- One more paragraph. -/
theorem AlikeRuns.addParagraph {runs : List (List ChunkUnit) × List ChunkUnit} (h : AlikeRuns runs)
    (p : Nat × Text) : AlikeRuns (chunker.addParagraph size runs p) := by
  unfold Chunker.addParagraph
  split
  · refine ⟨fun us hus => ?_, fun u hu => absurd hu List.not_mem_nil⟩
    obtain hus | hus := List.mem_append.mp hus
    · exact h.closed us hus
    · obtain rfl | hus := List.mem_cons.mp hus
      · exact .inr h.current
      · rw [List.mem_singleton.mp hus]
        exact .inl fun u hu => isSome_of_mem_sentenceUnits hu
  · refine ⟨h.closed, fun u hu => ?_⟩
    obtain hu | hu := List.mem_append.mp hu
    · exact h.current u hu
    · rw [List.mem_singleton.mp hu]
      rfl

theorem alike_of_mem_unitRuns {run : List ChunkUnit} (hrun : run ∈ chunker.unitRuns text size) : Alike run := by
  have hloop : AlikeRuns ((paragraphsOf text).foldl (chunker.addParagraph size) ([], [])) :=
    List.foldlRecOn _ _ ⟨fun us hus => absurd hus List.not_mem_nil, fun u hu => absurd hu List.not_mem_nil⟩
      fun _ h p _ => h.addParagraph p
  obtain hrun | hrun := List.mem_append.mp hrun
  · exact hloop.closed run hrun
  · rw [List.mem_singleton.mp hrun]
    exact .inr hloop.current

/-- A stretch of a run has the separators of the run. -/
theorem joint_eq_of_stretch {run w : List ChunkUnit} (hrun : run ∈ chunker.unitRuns text size) (hne : w ≠ [])
    (hw : w <:+: run) : joint w = joint run := by
  obtain ⟨u, w, rfl⟩ := List.exists_cons_of_ne_nil hne
  have hu : u ∈ run := hw.subset List.mem_cons_self
  obtain ⟨v, rest, rfl⟩ := List.exists_cons_of_ne_nil (List.ne_nil_of_mem hu)
  rw [joint, joint]
  obtain hsent | hpara := alike_of_mem_unitRuns hrun
  · rw [hsent u hu, hsent v List.mem_cons_self]
  · rw [hpara u hu, hpara v List.mem_cons_self]

theorem joinedTotal_stretch (sep : Nat) {run : List ChunkUnit} {i j : Nat} (hj : j ≤ run.length) :
    chunker.joinedTotal sep ((run.take j).drop i) = joinedSpan (run.map chunker.weight) sep i j := by
  rw [joinedTotal, Sliding.total_stretch, List.length_drop, List.length_take_of_le hj, joinedSpan]

/-- The windows of several units fit by their sizes if and only if the sizes of the run fit. -/
theorem windows_spansFit_iff (sep : Nat) (run : List ChunkUnit) :
    (∀ w ∈ chunker.windowsOf size overlap run, 2 ≤ w.length → 10 * (chunker.joinedTotal sep w : Int) ≤ 12 * size) ↔
      SpansFit (run.map chunker.weight) sep size overlap := by
  have hlength : ∀ {i j : Nat}, j ≤ run.length → ((run.take j).drop i).length = j - i := fun hj => by
    rw [List.length_drop, List.length_take_of_le hj]
  unfold windowsOf
  constructor
  · refine fun h => ⟨fun j hj hlt hfull => ?_, fun hrest => ?_⟩
    · rw [List.length_map] at hj
      rw [← joinedTotal_stretch sep (by omega)]
      refine h _ (Sliding.mem_all_iff_start.mpr (.inl ⟨j, hj, hfull, rfl⟩)) ?_
      rw [hlength (by omega)]
      omega
    · rw [List.length_map] at hrest ⊢
      rw [← joinedTotal_stretch sep (Nat.le_refl _), List.take_length]
      refine h _ (Sliding.mem_all_iff_start.mpr (.inr ⟨by omega, rfl⟩)) ?_
      rw [List.length_drop]
      omega
  · intro h w hw htwo
    obtain ⟨j, hj, hfull, rfl⟩ | ⟨hlt, rfl⟩ := Sliding.mem_all_iff_start.mp hw
    · rw [hlength (by omega)] at htwo
      rw [joinedTotal_stretch sep (by omega)]
      exact h.fills j (by rwa [List.length_map]) (by omega) hfull
    · rw [List.length_drop] at htwo
      have hrest := h.rest
      rw [List.length_map] at hrest
      have hfit := hrest (by omega)
      rw [← joinedTotal_stretch sep (Nat.le_refl _), List.take_length] at hfit
      exact hfit

/-! ## The chunks -/

/-- A window with too few tokens for a chunk is within the budget. -/
theorem joinsFit_of_not_keeps {w : List ChunkUnit} (hsize : (chunker.minChunkSizeTokens : Int) ≤ size)
    (h : chunker.keeps w = false) : chunker.JoinsFit size w := by
  have hshort : chunker.countTokens (joined w) < chunker.minChunkSizeTokens := by
    simpa [keeps, longEnough] using h
  unfold JoinsFit
  omega

/-- A window of one unit is within the budget, unless it is a sentence that is larger than a chunk. -/
theorem single_joinsFit {run : List ChunkUnit} {u : ChunkUnit} (hrun : run ∈ chunker.unitRuns text size)
    (hu : u ∈ run) : chunker.JoinsFit size [u] ∨ (u.sent.isSome = true ∧ size < chunker.weight u) := by
  have hjoined : joined [u] = u.text := by
    rw [joined, List.map_singleton]
    exact List.intercalate_singleton ..
  by_cases hlarge : size < chunker.weight u
  · refine .inr ⟨?_, hlarge⟩
    cases hs : u.sent with
    | none => exact absurd (chunker.weight_le_of_paragraph hrun hu hs) (Int.not_le.mpr hlarge)
    | some k => rfl
  · left
    unfold JoinsFit
    rw [hjoined]
    have hsmall : (chunker.countTokens u.text : Int) ≤ size := Int.not_lt.mp hlarge
    omega

/-- The chunks in terms of their windows. -/
theorem withinBudget_windows : chunker.WithinBudget text sourceDocumentId sourceUrl size overlap ↔
    ∀ w ∈ chunker.chunkUnits text size overlap,
      chunker.JoinsFit size w ∨ ∃ u, w = [u] ∧ u.sent.isSome = true ∧ size < chunker.weight u := by
  have htokens : ∀ {w : List ChunkUnit} {i : Nat} {c : TextChunk},
      chunker.makeUnits (normaliseWhitespace text) sourceDocumentId sourceUrl w i = some c →
        c.tokenCount = chunker.countTokens (joined w) := by
    intro w i c hmake
    have hnumbered := chunker.numbered_makeUnits _ sourceDocumentId sourceUrl hmake
    rw [hnumbered.tokenCount, chunker.text_of_makeUnits _ sourceDocumentId sourceUrl hmake]
  constructor
  · intro h w hw
    obtain ⟨i, hi⟩ := List.mem_iff_getElem?.mp hw
    obtain ⟨c, hc, hmake⟩ := chunker.chunkAt sourceDocumentId sourceUrl hi
    obtain hfit | ⟨u, hu, hsent, hlarge⟩ := h i c hc
    · rw [htokens hmake] at hfit
      exact .inl hfit
    · exact .inr ⟨u, Option.some.inj (hi.symm.trans hu), hsent, hlarge⟩
  · intro h i c hc
    obtain ⟨w, hw, hmake⟩ := chunker.unitsAt text sourceDocumentId sourceUrl size overlap hc
    obtain hfit | ⟨u, rfl, hsent, hlarge⟩ := h w (List.mem_of_getElem? hw)
    · rw [htokens hmake]
      exact .inl hfit
    · exact .inr ⟨u, hw, hsent, hlarge⟩

/-- The chunks are within the budget if and only if the windows of several units are. -/
theorem withinBudget_joinsFit (hsize : (chunker.minChunkSizeTokens : Int) ≤ size) :
    chunker.WithinBudget text sourceDocumentId sourceUrl size overlap ↔ ∀ run ∈ chunker.unitRuns text size,
      ∀ w ∈ chunker.windowsOf size overlap run, 2 ≤ w.length → chunker.JoinsFit size w := by
  rw [withinBudget_windows]
  constructor
  · intro h run hrun w hw hlength
    cases hkeep : chunker.keeps w with
    | false => exact joinsFit_of_not_keeps hsize hkeep
    | true =>
      obtain hfit | ⟨u, rfl, -⟩ := h w (mem_chunkUnits.mpr ⟨run, hrun, hw, hkeep⟩)
      · exact hfit
      · rw [List.length_singleton] at hlength
        omega
  · intro h w hw
    obtain ⟨run, hrun, hw, -⟩ := mem_chunkUnits.mp hw
    obtain ⟨u, rest, rfl⟩ := List.exists_cons_of_ne_nil (Sliding.ne_nil_of_mem_all hw)
    obtain rfl | hrest := eq_or_ne rest []
    · have hu : u ∈ run := Sliding.subset_of_mem_all hw (List.mem_singleton_self u)
      obtain hfit | hlarge := single_joinsFit hrun hu
      · exact .inl hfit
      · exact .inr ⟨u, rfl, hlarge⟩
    · refine .inl (h run hrun _ hw ?_)
      have hpos := List.length_pos_iff.mpr hrest
      rw [List.length_cons]
      omega

/-- With the separators, sizes that fit are enough. -/
theorem withinBudget_of_sizesFit (hsize : (chunker.minChunkSizeTokens : Int) ≤ size)
    (hcount : Subadditive chunker.countTokens) (h : chunker.SizesFit text size overlap joint) :
    chunker.WithinBudget text sourceDocumentId sourceUrl size overlap := by
  refine (withinBudget_joinsFit hsize).mpr fun run hrun w hw hlength => ?_
  have hne := Sliding.ne_nil_of_mem_all hw
  have hfit := (windows_spansFit_iff (joint run) run).mpr (h run hrun) w hw hlength
  have hjoin := countTokens_joined_le hcount hne
  rw [joint_eq_of_stretch hrun hne (Sliding.infix_of_mem_all hw)] at hjoin
  unfold JoinsFit
  omega

/-- With what a counter adds for them, the sizes of chunks within the budget fit. -/
theorem sizesFit_of_withinBudget {sep : List ChunkUnit → Nat} (hsize : (chunker.minChunkSizeTokens : Int) ≤ size)
    (hadd : chunker.JoinsAdd text size sep)
    (h : chunker.WithinBudget text sourceDocumentId sourceUrl size overlap) :
    chunker.SizesFit text size overlap sep := by
  intro run hrun
  refine (windows_spansFit_iff (sep run) run).mp fun w hw hlength => ?_
  have hfit := (withinBudget_joinsFit hsize).mp h run hrun w hw hlength
  have hjoin := hadd run hrun w (Sliding.ne_nil_of_mem_all hw) (Sliding.infix_of_mem_all hw)
  unfold JoinsFit at hfit
  omega

/-- **The chunks are within the budget when the sizes of the units fit with the separators**, exactly then if the
counter adds the tokens of the separators, and only when they fit with what it adds if it adds fewer. -/
theorem withinBudget_iff (hsize : (chunker.minChunkSizeTokens : Int) ≤ size)
    (hcount : Subadditive chunker.countTokens) :
    (chunker.SizesFit text size overlap joint →
        chunker.WithinBudget text sourceDocumentId sourceUrl size overlap) ∧
      (chunker.JoinsAdd text size joint → (chunker.WithinBudget text sourceDocumentId sourceUrl size overlap ↔
        chunker.SizesFit text size overlap joint)) ∧
        ∀ sep, chunker.JoinsAdd text size sep →
          chunker.WithinBudget text sourceDocumentId sourceUrl size overlap →
            chunker.SizesFit text size overlap sep :=
  ⟨withinBudget_of_sizesFit hsize hcount,
    fun hadd => ⟨sizesFit_of_withinBudget hsize hadd, withinBudget_of_sizesFit hsize hcount⟩,
    fun _ => sizesFit_of_withinBudget hsize⟩

end

namespace Sample

/-- A paragraph of 49 tokens and one of 50. -/
def twoParagraphs : Text := List.replicate 196 'a' ++ "\n\n".toList ++ List.replicate 200 'b'

end Sample

/-- Each character is a token. -/
def Sample.byCharacters : Chunker := { countTokens := List.length }

theorem subadditive_length : Subadditive List.length := by
  intro a b sep _
  rw [List.length_append, List.length_append]
  omega

/-- The characters of joined units are those of the units and of the separators. -/
theorem length_intercalate_units (sep : Text) (u : ChunkUnit) (w : List ChunkUnit) :
    (sep.intercalate ((u :: w).map ChunkUnit.text)).length =
      Sliding.total Sample.byCharacters.weight (u :: w) + sep.length * w.length := by
  induction w generalizing u with
  | nil =>
    rw [List.map_singleton, List.intercalate_singleton]
    rfl
  | cons v w ih =>
    have hweight : Sample.byCharacters.weight u = u.text.length := rfl
    have hrest := ih v
    rw [List.map_cons] at hrest
    rw [List.map_cons, List.map_cons, List.intercalate_cons_cons, List.length_append, List.length_append, hrest,
      Sliding.total_cons u, List.length_cons, Nat.mul_succ]
    omega

theorem length_joined {w : List ChunkUnit} (hne : w ≠ []) :
    (joined w).length = Sample.byCharacters.joinedTotal (joint w) w := by
  obtain ⟨u, w, rfl⟩ := List.exists_cons_of_ne_nil hne
  rw [joinedTotal, joint, joined, List.length_cons, Nat.add_sub_cancel]
  split
  · exact length_intercalate_units [' '] u w
  · exact length_intercalate_units "\n\n".toList u w

theorem joinsAdd_byCharacters (text : Text) (size : Int) : Sample.byCharacters.JoinsAdd text size joint := by
  intro run hrun w hne hw
  rw [← joint_eq_of_stretch hrun hne hw]
  exact (length_joined hne).ge

/-- The fallback counter saves no tokens of units with four characters or more. -/
theorem joinsAdd_fallback {text : Text} {size : Int}
    (hlong : ∀ run ∈ Sample.fallback.unitRuns text size, ∀ u ∈ run, 4 ≤ u.text.length) :
    Sample.fallback.JoinsAdd text size fun _ => 0 := by
  intro run hrun w hne hw
  have hsum : ∀ w : List ChunkUnit, (∀ u ∈ w, 4 ≤ u.text.length) →
      4 * Sliding.total Sample.fallback.weight w ≤ Sliding.total Sample.byCharacters.weight w := by
    intro w hlong
    induction w with
    | nil => exact Nat.le_refl _
    | cons u w ih =>
      obtain ⟨hu, hw⟩ := List.forall_mem_cons.mp hlong
      have hrest := ih hw
      have hweight : Sample.fallback.weight u = max 1 (u.text.length / 4) := rfl
      have hchars : Sample.byCharacters.weight u = u.text.length := rfl
      rw [Sliding.total_cons, Sliding.total_cons]
      omega
  have htotal := hsum w fun u hu => hlong run hrun u (hw.subset hu)
  have hlength := length_joined hne
  rw [joinedTotal] at hlength
  show Sliding.total Sample.fallback.weight w + 0 * (w.length - 1) ≤ max 1 ((joined w).length / 4)
  omega

/-- In characters the two paragraphs are within a budget of 400, and not within one of 200; with the fallback counter
they are not within one of 50. -/
theorem withinBudget_iff_twoParagraphs :
    Sample.byCharacters.WithinBudget Sample.twoParagraphs [] [] 400 0 ∧
      ¬ Sample.byCharacters.WithinBudget Sample.twoParagraphs [] [] 200 0 ∧
        ¬ Sample.fallback.WithinBudget Sample.twoParagraphs [] [] 50 0 := by
  refine ⟨(withinBudget_iff (by decide) subadditive_length).1 (by decide +kernel), fun h => ?_, fun h => ?_⟩
  · have hsizes := ((withinBudget_iff (by decide) subadditive_length).2.1 (joinsAdd_byCharacters _ _)).mp h
    exact absurd hsizes (by decide +kernel)
  · have hlong : ∀ run ∈ Sample.fallback.unitRuns Sample.twoParagraphs 50, ∀ u ∈ run, 4 ≤ u.text.length := by
      decide +kernel
    have hsizes := (withinBudget_iff (by decide) subadditive_fallbackCount).2.2 _ (joinsAdd_fallback hlong) h
    exact absurd hsizes (by decide +kernel)

/-- With the fallback counter the two paragraphs are one chunk of 99 tokens. -/
theorem twoParagraphs_exceed : ¬ Sample.fallback.WithinBudget Sample.twoParagraphs [] [] 50 0 := by
  intro hbudget
  have htokens : (Sample.fallback.chunkText Sample.twoParagraphs [] [] 50 0).map TextChunk.tokenCount = [99] := by
    decide +kernel
  have hunits : (Sample.fallback.chunkUnits Sample.twoParagraphs 50 0).map List.length = [2] := by decide +kernel
  obtain ⟨c, hc, h99⟩ := List.map_eq_singleton_iff.mp htokens
  obtain ⟨w, hw, htwo⟩ := List.map_eq_singleton_iff.mp hunits
  obtain hfit | ⟨u, hu, -⟩ := hbudget 0 c (by rw [hc]; rfl)
  · omega
  · rw [hw] at hu
    have hone : w = [u] := Option.some.inj hu
    rw [hone, List.length_singleton] at htwo
    omega

theorem not_withinBudget :
    ¬ ∀ countTokens, Subadditive countTokens → ∀ (text sourceDocumentId sourceUrl : Text) (size overlap : Int),
      50 ≤ size → overlap < size →
        Chunker.WithinBudget { countTokens := countTokens } text sourceDocumentId sourceUrl size overlap := fun h =>
  twoParagraphs_exceed
    (h fallbackCount subadditive_fallbackCount Sample.twoParagraphs [] [] 50 0 (by decide) (by decide))

/-- The fallback counter, with at most 60 tokens for any text. -/
def Sample.capped : Chunker := { countTokens := fun text => min (fallbackCount text) 60 }

theorem subadditive_capped : Subadditive Sample.capped.countTokens := by
  intro a b sep hsep
  have hjoin := subadditive_fallbackCount a b sep hsep
  show min (fallbackCount (a ++ sep ++ b)) 60 ≤ min (fallbackCount a) 60 + min (fallbackCount b) 60 + sep.length
  omega

/-- **The sizes of the units do not decide it for all counters**: with the same sizes one counter keeps to the budget
and another one does not. -/
theorem sizes_do_not_decide :
    ∃ c c' : Chunker, (Subadditive c.countTokens ∧ Subadditive c'.countTokens) ∧
      (c.unitRuns Sample.twoParagraphs 50).map (List.map c.weight) =
          (c'.unitRuns Sample.twoParagraphs 50).map (List.map c'.weight) ∧
        c.WithinBudget Sample.twoParagraphs [] [] 50 0 ∧ ¬ c'.WithinBudget Sample.twoParagraphs [] [] 50 0 := by
  have htokens : (Sample.capped.chunkText Sample.twoParagraphs [] [] 50 0).map TextChunk.tokenCount = [60] := by
    decide +kernel
  refine ⟨Sample.capped, Sample.fallback, ⟨subadditive_capped, subadditive_fallbackCount⟩, by decide +kernel,
    fun i c hc => .inl ?_, twoParagraphs_exceed⟩
  have hcount := List.mem_map_of_mem (f := TextChunk.tokenCount) (List.mem_of_getElem? hc)
  rw [htokens, List.mem_singleton] at hcount
  omega

end Chunker

end ComplianceLoop
