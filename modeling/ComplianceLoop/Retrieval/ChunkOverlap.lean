import ComplianceLoop.Retrieval.ChunkUnits

/-!
# The overlap of consecutive chunks

Consecutive chunks are meant to overlap, and each chunk to bring something new. The window is started anew where the
chunker goes over from paragraphs to sentences and back, and a window may be dropped between two chunks. So consecutive
chunks overlap exactly when all chunks come from one run, and no dropped window adds as much as the overlap
(`overlapsNext_iff`). And the overlap that is left when the last unit of a run fills a window is emitted once more; each
chunk brings something new exactly when no run ends so with two chunks (`bringsNew_iff`).
-/

set_option autoImplicit false

namespace ComplianceLoop

open PyLib

namespace Chunker

section

variable (chunker : Chunker) (text sourceDocumentId sourceUrl : Text) (size overlap : Int)

/-- The windows of a run that are long enough. -/
def keptWindows (run : List ChunkUnit) : List (List ChunkUnit) :=
  (chunker.windowsOf size overlap run).filter chunker.keeps

/-- Some chunk comes from the run. -/
def hasChunk (run : List ChunkUnit) : Bool := (chunker.windowsOf size overlap run).any chunker.keeps

/-- Of two consecutive chunks, the first one ends with units with which the second one starts. -/
def OverlapsNext : Prop :=
  ∀ (i : Nat) (c c' : TextChunk), (chunker.chunkText text sourceDocumentId sourceUrl size overlap)[i]? = some c →
    (chunker.chunkText text sourceDocumentId sourceUrl size overlap)[i + 1]? = some c' →
      ∃ w w', (chunker.chunkUnits text size overlap)[i]? = some w ∧
        (chunker.chunkUnits text size overlap)[i + 1]? = some w' ∧ Sliding.Shares w w'

/-- No window that is dropped between two chunks of a run has as many tokens as the overlap beside the first one. -/
def DropsLittle (run : List ChunkUnit) : Prop :=
  ∀ w dropped w', Sliding.Adjacent chunker.keeps (chunker.windowsOf size overlap run) w dropped w' →
    ∀ d ∈ dropped, (Sliding.beside chunker.weight w d : Int) < overlap

/-- Each chunk after the first has a unit that is in no earlier chunk. -/
def BringsNew : Prop :=
  ∀ (j : Nat) (c : TextChunk), (chunker.chunkText text sourceDocumentId sourceUrl size overlap)[j]? = some c → 0 < j →
    ∃ w, (chunker.chunkUnits text size overlap)[j]? = some w ∧
      ∃ u ∈ w, ∀ i < j, ∀ w', (chunker.chunkUnits text size overlap)[i]? = some w' → u ∉ w'

/-- The last unit of the run fills the window, and the window and its overlap are both long enough for a chunk. -/
def EndsInOverlap (run : List ChunkUnit) : Prop :=
  ∃ us u, run = us ++ [u] ∧
    size ≤ Sliding.total chunker.weight ((Sliding.slide chunker.weight size overlap us).opened ++ [u]) ∧
    chunker.keeps ((Sliding.slide chunker.weight size overlap us).opened ++ [u]) = true ∧
    Sliding.carry chunker.weight overlap ((Sliding.slide chunker.weight size overlap us).opened ++ [u]) ≠ [] ∧
    chunker.keeps
      (Sliding.carry chunker.weight overlap ((Sliding.slide chunker.weight size overlap us).opened ++ [u])) = true

variable {chunker text sourceDocumentId sourceUrl size overlap}

/-! ## The runs that have chunks -/

theorem keptWindows_ne_nil {run : List ChunkUnit} :
    chunker.keptWindows size overlap run ≠ [] ↔ chunker.hasChunk size overlap run = true := by
  rw [keptWindows, hasChunk, List.any_eq_true, ne_eq, List.filter_eq_nil_iff]
  push Not
  rfl

theorem keptWindows_eq_nil {run : List ChunkUnit} (h : chunker.hasChunk size overlap run = false) :
    chunker.keptWindows size overlap run = [] := by
  by_contra hne
  rw [keptWindows_ne_nil.mp hne] at h
  cases h

/-- The windows of the chunks, run by run. -/
theorem chunkUnits_eq : chunker.chunkUnits text size overlap =
    ((chunker.unitRuns text size).filter (chunker.hasChunk size overlap)).flatMap
      (chunker.keptWindows size overlap) := by
  rw [chunkUnits, List.filter_flatMap]
  induction chunker.unitRuns text size with
  | nil => rfl
  | cons run runs ih =>
    rw [List.flatMap_cons, ih]
    cases hchunk : chunker.hasChunk size overlap run with
    | false =>
      rw [List.filter_cons_of_neg (by simp [hchunk])]
      exact congrArg (· ++ _) (keptWindows_eq_nil hchunk)
    | true =>
      rw [List.filter_cons_of_pos hchunk, List.flatMap_cons]
      rfl

theorem subset_of_mem_keptWindows {run w : List ChunkUnit} (h : w ∈ chunker.keptWindows size overlap run) : w ⊆ run :=
  Sliding.subset_of_mem_all (List.mem_filter.mp h).1

/-- Different runs have no unit in common. -/
theorem pairwise_disjoint_runs (chunker : Chunker) (text : Text) (size : Int) :
    (chunker.unitRuns text size).Pairwise List.Disjoint :=
  (List.nodup_flatten.mp (chunker.nodup_units text size)).2

/-! ## Overlaps -/

/-- The windows of two runs have no overlap. -/
theorem not_shares_of_runs {run run' w w' : List ChunkUnit} (hdisjoint : run.Disjoint run')
    (hw : w ∈ chunker.keptWindows size overlap run) (hw' : w' ∈ chunker.keptWindows size overlap run') :
    ¬ Sliding.Shares w w' :=
  Sliding.not_shares_of_disjoint fun _ hu' hu =>
    hdisjoint (subset_of_mem_keptWindows hw hu) (subset_of_mem_keptWindows hw' hu')

/-- Chunks of two runs do not overlap, so that the chunks overlap only if they come from one run. -/
theorem isChain_chunkUnits : (chunker.chunkUnits text size overlap).IsChain Sliding.Shares ↔
    ((chunker.unitRuns text size).filter (chunker.hasChunk size overlap)).length ≤ 1 ∧
      ∀ run ∈ chunker.unitRuns text size, (chunker.keptWindows size overlap run).IsChain Sliding.Shares := by
  have hdisjoint := (chunker.pairwise_disjoint_runs text size).sublist
    (List.filter_sublist (p := chunker.hasChunk size overlap))
  have hne : [] ∉ ((chunker.unitRuns text size).filter (chunker.hasChunk size overlap)).map
      (chunker.keptWindows size overlap) := by
    intro hmem
    obtain ⟨run, hrun, hnil⟩ := List.mem_map.mp hmem
    exact keptWindows_ne_nil.mpr (List.mem_filter.mp hrun).2 hnil
  have hwithin : (∀ ws ∈ ((chunker.unitRuns text size).filter (chunker.hasChunk size overlap)).map
      (chunker.keptWindows size overlap), ws.IsChain Sliding.Shares) ↔
      ∀ run ∈ chunker.unitRuns text size, (chunker.keptWindows size overlap run).IsChain Sliding.Shares := by
    rw [List.forall_mem_map]
    refine ⟨fun h run hrun => ?_, fun h run hrun => h run (List.mem_filter.mp hrun).1⟩
    cases hchunk : chunker.hasChunk size overlap run with
    | true => exact h run (List.mem_filter.mpr ⟨hrun, hchunk⟩)
    | false =>
      rw [keptWindows_eq_nil hchunk]
      exact List.IsChain.nil
  rw [chunkUnits_eq, List.flatMap, List.isChain_flatten hne, hwithin, and_comm]
  refine and_congr_left fun _ => ?_
  match hruns : (chunker.unitRuns text size).filter (chunker.hasChunk size overlap) with
  | [] => simp
  | [run] => simp
  | run :: run' :: runs =>
    refine iff_of_false (fun hchain => ?_) (by simp)
    have hmem : ∀ r ∈ [run, run'], r ∈ (chunker.unitRuns text size).filter (chunker.hasChunk size overlap) := by
      intro r hr
      rw [hruns]
      exact List.mem_append_left runs hr
    have hfirst := keptWindows_ne_nil.mpr (List.mem_filter.mp (hmem run (by simp))).2
    have hsecond := keptWindows_ne_nil.mpr (List.mem_filter.mp (hmem run' (by simp))).2
    have hshares := (List.isChain_cons_cons.mp hchain).1 _ (List.getLast?_eq_some_getLast hfirst) _
      (List.head?_eq_some_head hsecond)
    rw [hruns] at hdisjoint
    have hruns' := (List.pairwise_cons.mp hdisjoint).1 run' List.mem_cons_self
    exact not_shares_of_runs hruns' (List.getLast_mem hfirst) (List.head_mem hsecond) hshares

/-- The chunks in terms of their windows. -/
theorem overlapsNext_windows : chunker.OverlapsNext text sourceDocumentId sourceUrl size overlap ↔
    (chunker.chunkUnits text size overlap).IsChain Sliding.Shares := by
  rw [List.isChain_iff_getElem]
  constructor
  · intro h i hi
    obtain ⟨c, hc, -⟩ := chunker.chunkAt sourceDocumentId sourceUrl (List.getElem?_eq_getElem (Nat.lt_of_succ_lt hi))
    obtain ⟨c', hc', -⟩ := chunker.chunkAt sourceDocumentId sourceUrl (List.getElem?_eq_getElem hi)
    obtain ⟨w, w', hw, hw', hshares⟩ := h i c c' hc hc'
    rw [(List.getElem?_eq_some_iff.mp hw).2, (List.getElem?_eq_some_iff.mp hw').2]
    exact hshares
  · intro h i c c' hc hc'
    obtain ⟨w, hw, -⟩ := chunker.unitsAt text sourceDocumentId sourceUrl size overlap hc
    obtain ⟨w', hw', -⟩ := chunker.unitsAt text sourceDocumentId sourceUrl size overlap hc'
    obtain ⟨hi, rfl⟩ := List.getElem?_eq_some_iff.mp hw
    obtain ⟨hi', rfl⟩ := List.getElem?_eq_some_iff.mp hw'
    exact ⟨_, _, hw, hw', h i hi'⟩

/-- **Consecutive chunks overlap if and only if they all come from one run, and no window that is dropped between two of
them has as many tokens as the overlap beside the first one.** -/
theorem overlapsNext_iff (hoverlap : 0 < overlap) :
    chunker.OverlapsNext text sourceDocumentId sourceUrl size overlap ↔
      ((chunker.unitRuns text size).filter (chunker.hasChunk size overlap)).length ≤ 1 ∧
        ∀ run ∈ chunker.unitRuns text size, chunker.DropsLittle size overlap run := by
  rw [overlapsNext_windows, isChain_chunkUnits]
  refine and_congr_right fun _ => forall₂_congr fun run hrun => ?_
  exact Sliding.isChain_shares_iff (chunker.nodup_of_mem_unitRuns hrun) hoverlap chunker.keeps

/-! ## New units -/

/-- An overlap that is not empty ends as its window. -/
theorem getLast?_carry {us : List ChunkUnit} {u : ChunkUnit}
    (h : Sliding.carry chunker.weight overlap (us ++ [u]) ≠ []) :
    (Sliding.carry chunker.weight overlap (us ++ [u])).getLast? = some u := by
  have hsuffix : Sliding.carry chunker.weight overlap (us ++ [u]) <:+ us ++ [u] := Sliding.carry_suffix _
  obtain ⟨before, hbefore⟩ := hsuffix
  rw [← List.getLast?_append_of_ne_nil before h, hbefore, List.getLast?_concat]

/-- The kept windows of a run that does not end in an overlap each end with a new unit. -/
theorem pairwise_keptWindows {run : List ChunkUnit} (hrun : run.Nodup) (h : ¬ chunker.EndsInOverlap size overlap run) :
    (chunker.keptWindows size overlap run).Pairwise Sliding.EndsNew := by
  unfold keptWindows windowsOf
  obtain rfl | ⟨us, u, rfl⟩ := List.eq_nil_or_concat' run
  · exact List.Pairwise.nil
  · obtain ⟨hus, -, hdisjoint⟩ := List.nodup_append.mp hrun
    have hu : u ∉ us := fun hmem => hdisjoint u hmem u (List.mem_singleton_self u) rfl
    have hclosed : ∀ w : List ChunkUnit, w.getLast? = some u →
        ((Sliding.slide chunker.weight size overlap us).closed ++ [w]).Pairwise Sliding.EndsNew := fun w hlast =>
      Sliding.pairwise_endsNew_concat (Sliding.pairwise_closed hus) (fun _ => Sliding.subset_of_mem_closed) hu hlast
    have hfirst := hclosed ((Sliding.slide chunker.weight size overlap us).opened ++ [u]) List.getLast?_concat
    by_cases hfull : size ≤ Sliding.total chunker.weight ((Sliding.slide chunker.weight size overlap us).opened ++ [u])
    · rw [Sliding.slide_concat_full hfull]
      unfold Sliding.Windows.all
      split
      · exact hfirst.filter _
      · rename_i hne
        have hne : Sliding.carry chunker.weight overlap ((Sliding.slide chunker.weight size overlap us).opened ++ [u]) ≠
            [] := by simpa using hne
        dsimp only
        cases hkeep : chunker.keeps ((Sliding.slide chunker.weight size overlap us).opened ++ [u]) with
        | false =>
          -- the overlap comes in place of the window
          rw [List.append_assoc, List.filter_append, List.singleton_append,
            List.filter_cons_of_neg (by simp [hkeep]), ← List.filter_append]
          exact (hclosed _ (getLast?_carry hne)).filter _
        | true =>
          have hdrop : chunker.keeps (Sliding.carry chunker.weight overlap
              ((Sliding.slide chunker.weight size overlap us).opened ++ [u])) = false :=
            Bool.eq_false_iff.mpr fun hkeep' => h ⟨us, u, rfl, hfull, hkeep, hne, hkeep'⟩
          rw [List.filter_append, List.filter_cons_of_neg (by simp [hdrop]), List.filter_nil, List.append_nil]
          exact hfirst.filter _
    · rw [Sliding.slide_concat_room hfull]
      unfold Sliding.Windows.all
      rw [if_neg (by simp)]
      exact hfirst.filter _

/-- Each kept window ends with a unit that is in no earlier one, over all runs. -/
theorem pairwise_chunkUnits (h : ∀ run ∈ chunker.unitRuns text size, ¬ chunker.EndsInOverlap size overlap run) :
    (chunker.chunkUnits text size overlap).Pairwise Sliding.EndsNew := by
  rw [chunkUnits, List.filter_flatMap, List.pairwise_flatMap]
  refine ⟨fun run hrun => pairwise_keptWindows (chunker.nodup_of_mem_unitRuns hrun) (h run hrun), ?_⟩
  refine (chunker.pairwise_disjoint_runs text size).imp fun {run run'} hdisjoint w hw w' hw' u hu hmem => ?_
  exact hdisjoint (subset_of_mem_keptWindows hw hmem) (subset_of_mem_keptWindows hw' (List.mem_of_mem_getLast? hu))

/-- A run that ends in an overlap has a chunk that is part of the chunk before it. -/
theorem chunkUnits_of_endsInOverlap {run : List ChunkUnit} (hrun : run ∈ chunker.unitRuns text size)
    (h : chunker.EndsInOverlap size overlap run) :
    ∃ (ws rest : List (List ChunkUnit)) (w o : List ChunkUnit),
      chunker.chunkUnits text size overlap = ws ++ w :: o :: rest ∧ o ⊆ w := by
  obtain ⟨us, u, rfl, hfull, hkeep, hne, hkeep'⟩ := h
  obtain ⟨before, after, hruns⟩ := List.append_of_mem hrun
  have hlast : chunker.keptWindows size overlap (us ++ [u]) =
      (Sliding.slide chunker.weight size overlap us).closed.filter chunker.keeps ++
        [(Sliding.slide chunker.weight size overlap us).opened ++ [u],
          Sliding.carry chunker.weight overlap ((Sliding.slide chunker.weight size overlap us).opened ++ [u])] := by
    unfold keptWindows windowsOf
    rw [Sliding.slide_concat_full hfull]
    unfold Sliding.Windows.all
    rw [if_neg (by simpa using hne), List.filter_append, List.filter_append, List.filter_cons_of_pos hkeep,
      List.filter_cons_of_pos hkeep', List.filter_nil, List.append_assoc, List.singleton_append]
  have hunits : chunker.chunkUnits text size overlap =
      before.flatMap (chunker.keptWindows size overlap) ++
        (chunker.keptWindows size overlap (us ++ [u]) ++ after.flatMap (chunker.keptWindows size overlap)) := by
    rw [chunkUnits, List.filter_flatMap, hruns, List.flatMap_append, List.flatMap_cons]
    rfl
  rw [hlast, List.append_assoc, ← List.append_assoc] at hunits
  exact ⟨_, _, _, _, hunits, (Sliding.carry_suffix _).subset⟩

/-- **Each chunk after the first brings a new unit if and only if no run ends in an overlap.** -/
theorem bringsNew_iff : chunker.BringsNew text sourceDocumentId sourceUrl size overlap ↔
    ∀ run ∈ chunker.unitRuns text size, ¬ chunker.EndsInOverlap size overlap run := by
  constructor
  · intro h run hrun hends
    obtain ⟨ws, rest, w, o, hunits, hsub⟩ := chunkUnits_of_endsInOverlap hrun hends
    have hw : (chunker.chunkUnits text size overlap)[ws.length]? = some w := by simp [hunits]
    have ho : (chunker.chunkUnits text size overlap)[ws.length + 1]? = some o := by simp [hunits]
    obtain ⟨c, hc, -⟩ := chunker.chunkAt sourceDocumentId sourceUrl ho
    obtain ⟨o', ho', u, hu, hnew⟩ := h _ c hc (Nat.succ_pos _)
    obtain rfl := Option.some.inj (ho.symm.trans ho')
    exact hnew ws.length (Nat.lt_succ_self _) w hw (hsub hu)
  · intro h j c hc _
    obtain ⟨w, hw, -⟩ := chunker.unitsAt text sourceDocumentId sourceUrl size overlap hc
    obtain ⟨run, -, hmem, -⟩ := mem_chunkUnits.mp (List.mem_of_getElem? hw)
    have hne := Sliding.ne_nil_of_mem_all hmem
    refine ⟨w, hw, w.getLast hne, List.getLast_mem hne, fun i hi w' hw' => ?_⟩
    obtain ⟨hj, rfl⟩ := List.getElem?_eq_some_iff.mp hw
    obtain ⟨hi', rfl⟩ := List.getElem?_eq_some_iff.mp hw'
    exact List.pairwise_iff_getElem.mp (pairwise_chunkUnits h) i j hi' hj hi _ (List.getLast?_eq_some_getLast hne)

end

namespace Sample

/-- A paragraph of 50 tokens. -/
def oneParagraph : Text := List.replicate 200 'a'

/-- A paragraph of 50 tokens, and one of 60. -/
def largeParagraph : Text := oneParagraph ++ "\n\n".toList ++ List.replicate 240 'b'

end Sample

theorem overlapsNext_iff_largeParagraph :
    Sample.fallback.OverlapsNext Sample.largeParagraph [] [] 50 10 ↔
      ((Sample.fallback.unitRuns Sample.largeParagraph 50).filter (Sample.fallback.hasChunk 50 10)).length ≤ 1 ∧
        ∀ run ∈ Sample.fallback.unitRuns Sample.largeParagraph 50, Sample.fallback.DropsLittle 50 10 run :=
  overlapsNext_iff (by decide)

/-- The sentence of the large paragraph follows the small one without an overlap. -/
theorem not_overlapsNext :
    ¬ ∀ (countTokens : Text → Nat) (text sourceDocumentId sourceUrl : Text) (size overlap : Int), 1 ≤ size →
      0 < overlap →
        Chunker.OverlapsNext { countTokens := countTokens } text sourceDocumentId sourceUrl size overlap := by
  intro h
  have hnext : Sample.fallback.OverlapsNext Sample.largeParagraph [] [] 50 10 :=
    h fallbackCount Sample.largeParagraph [] [] 50 10 (by decide) (by decide)
  have hunits : Sample.fallback.chunkUnits Sample.largeParagraph 50 10 =
      [[⟨0, none, Sample.oneParagraph⟩], [⟨0, none, Sample.oneParagraph⟩], [⟨1, some 0, List.replicate 240 'b'⟩],
        [⟨1, some 0, List.replicate 240 'b'⟩]] := by decide +kernel
  have hchain := overlapsNext_windows.mp hnext
  rw [hunits, List.isChain_cons_cons, List.isChain_cons_cons] at hchain
  refine Sliding.not_shares_of_disjoint (fun u hu hu' => ?_) hchain.2.1
  rw [List.mem_singleton] at hu hu'
  exact absurd (congrArg ChunkUnit.para (hu.symm.trans hu')) (by decide)

/-- The paragraph is emitted twice. -/
theorem not_bringsNew :
    ¬ ∀ (countTokens : Text → Nat) (text sourceDocumentId sourceUrl : Text) (size overlap : Int),
      Chunker.BringsNew { countTokens := countTokens } text sourceDocumentId sourceUrl size overlap := by
  intro h
  have hnew : Sample.fallback.BringsNew Sample.oneParagraph [] [] 50 10 :=
    h fallbackCount Sample.oneParagraph [] [] 50 10
  have hunits : Sample.fallback.chunkUnits Sample.oneParagraph 50 10 =
      [[⟨0, none, Sample.oneParagraph⟩], [⟨0, none, Sample.oneParagraph⟩]] := by decide +kernel
  have hsecond : (Sample.fallback.chunkUnits Sample.oneParagraph 50 10)[1]? =
      some [⟨0, none, Sample.oneParagraph⟩] := by rw [hunits]; rfl
  obtain ⟨c, hc, -⟩ := Sample.fallback.chunkAt [] [] hsecond
  obtain ⟨w, hw, u, hu, hfresh⟩ := hnew 1 c hc Nat.one_pos
  rw [hunits] at hw hfresh
  obtain rfl := Option.some.inj hw
  exact hfresh 0 Nat.one_pos _ rfl hu

end Chunker

end ComplianceLoop
