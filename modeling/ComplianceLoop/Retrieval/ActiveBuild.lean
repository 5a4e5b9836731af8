import ComplianceLoop.Retrieval.SafeSwap

/-!
# The build that a swap activates

A build writes the index and then the ID map, over the files of earlier builds; a swap asks for the index only. So the
two files of the staging directory are of one build exactly while the build that has written the index has not been
stopped between the two (`SwapInv`), and in a run where every activated pair of files has an index of a build that ran
to completion, every swap that returns True has activated the files of one such build (`active_of_completed`).
-/

set_option autoImplicit false

namespace ComplianceLoop

open PyLib Transition

namespace IndexDir

variable {V : Type}

/-- The two files of a directory, if they are there. -/
def indexIn (d : Option (IndexDir V)) : Option (BuiltFile (List V)) := d.bind IndexFiles.index
def idMapIn (d : Option (IndexDir V)) : Option (BuiltFile IdMapFile) := d.bind IndexFiles.idMap

/-- The directory holds an index and an ID map of one completed build. -/
def OfBuild (completed : List Nat) (d : Option (IndexDir V)) : Prop :=
  ∃ f g, indexIn d = some f ∧ idMapIn d = some g ∧ f.build ∈ completed ∧ g.build = f.build

/-- The same, if both files are there. -/
def OfBuildIfBoth (completed : List Nat) (d : Option (IndexDir V)) : Prop :=
  ∀ f g, indexIn d = some f → idMapIn d = some g → f.build ∈ completed ∧ g.build = f.build

/-- Files that can be read are there. -/
theorem files_of_contents {d : Option (IndexDir V)} {index : List V} {raw : IdMapFile}
    (h : contents d = ⟨some index, some raw⟩) :
    ∃ f g, indexIn d = some f ∧ idMapIn d = some g ∧ f.content = index ∧ g.content = raw := by
  cases d with
  | none => cases h
  | some d =>
    obtain ⟨hindex, hidMap⟩ := IndexFiles.mk.inj h
    obtain ⟨f, hf, hfindex⟩ := Option.map_eq_some_iff.mp hindex
    obtain ⟨g, hg, hgraw⟩ := Option.map_eq_some_iff.mp hidMap
    exact ⟨f, g, hf, hg, hfindex, hgraw⟩

end IndexDir

open IndexDir

section

variable {V S : Type} {retriever : FAISSRetriever V S} {baseDir : Text} {s s' : SwapState V}

/-- Whenever a swap has returned True, the active directory holds an index and an ID map of one completed build. -/
def SwapState.ActiveComplete (s : SwapState V) : Prop :=
  s.outcome = some (.swapped true) → OfBuild s.completed s.active

/-- The step renames the staging directory to the active one. -/
def SwapState.activates (s : SwapState V) : SwapLabel → Bool
  | .next =>
    match s.op with
    | some .renameStaging => true
    | _ => false
  | _ => false

/-- A swap that activates an index and an ID map activates an index of a completed build. -/
def ActivatesCompleted (s : SwapState V) (l : SwapLabel) : Prop :=
  s.activates l = true → ∀ f ∈ indexIn s.staging, ∀ _ ∈ idMapIn s.staging, f.build ∈ s.completed

instance (s : SwapState V) (l : SwapLabel) : Decidable (ActivatesCompleted s l) :=
  inferInstanceAs (Decidable (_ → ∀ f ∈ indexIn s.staging, ∀ _ ∈ idMapIn s.staging, f.build ∈ s.completed))

/-! ## The invariant -/

/-- What holds before an operation. -/
def OpInv (s : SwapState V) : IndexOp V → Prop
  | .mkdir n _ | .embed n _ | .writeIndex n _ => n < s.builds ∧ n ∉ s.completed
  | .writeIdMap n _ => (n < s.builds ∧ n ∉ s.completed) ∧ ∀ f, indexIn s.staging = some f → f.build = n
  | .buildReturn n _ => (n < s.builds ∧ n ∉ s.completed) ∧ (∀ f, indexIn s.staging = some f → f.build = n) ∧
      ∀ g, idMapIn s.staging = some g → g.build = n
  | .reload => OfBuildIfBoth s.completed s.active
  | .publish => OfBuild s.completed s.active
  | .findStaging _ _ | .healthCheck _ | .rmtreeBackup | .renameActive | .renameStaging => True

/-- What holds of the build calls and the staging directory. -/
structure StagingInv (s : SwapState V) : Prop where
  completed_lt : ∀ n ∈ s.completed, n < s.builds
  /-- A completed build whose index is in the staging directory has also written the ID map there. -/
  staging : ∀ f g, indexIn s.staging = some f → idMapIn s.staging = some g → f.build ∈ s.completed →
    g.build = f.build

/-- The invariant of the calls. -/
structure SwapInv (s : SwapState V) : Prop extends StagingInv s where
  op : ∀ op, s.op = some op → s.outcome = none ∧ OpInv s op
  active : s.ActiveComplete

/-- No call is under way. -/
theorem StagingInv.idle (h : StagingInv s) (hop : s.op = none) (hactive : s.ActiveComplete) : SwapInv s where
  completed_lt := h.completed_lt
  staging := h.staging
  op _ hop' := by cases hop.symm.trans hop'
  active := hactive

theorem swapInv_start : SwapInv (SwapState.start V) := by
  have hstart : StagingInv (SwapState.start V) := ⟨fun _ hn => absurd hn List.not_mem_nil, fun _ _ hf => by cases hf⟩
  exact hstart.idle rfl fun hreturned => by cases hreturned

/-- A call that ends otherwise than by a swap that returns True. -/
theorem StagingInv.finish (h : StagingInv s) {outcome : IndexOutcome} (ho : outcome ≠ .swapped true) :
    SwapInv (s.finish outcome) := by
  have hended : StagingInv (s.finish outcome) := ⟨h.completed_lt, h.staging⟩
  exact hended.idle rfl fun hreturned => absurd (Option.some.inj hreturned) ho

/-- A call that goes on. -/
theorem StagingInv.goOn (h : StagingInv s) (hnone : s.outcome = none) {op : IndexOp V} (hop : OpInv s op) :
    SwapInv (s.goOn op) where
  completed_lt := h.completed_lt
  staging := h.staging
  op op' hop' := by
    obtain rfl := Option.some.inj hop'
    refine ⟨hnone, ?_⟩
    cases op <;> exact hop
  active hreturned := by cases hnone.symm.trans hreturned

/-- A removed file of the backup. -/
theorem SwapInv.unlink (h : SwapInv s) {remaining : IndexDir V → IndexDir V} (hs : s.unlink remaining = some s') :
    SwapInv s' := by
  obtain ⟨d, hop, -, rfl⟩ := SwapState.unlink_eq_some hs
  obtain ⟨hnone, -⟩ := h.op _ hop
  refine { completed_lt := h.completed_lt, staging := h.staging, op := ?_, active := h.active }
  intro op hop'
  obtain rfl := Option.some.inj (hop.symm.trans hop')
  exact ⟨hnone, trivial⟩

/-- The next operation keeps the invariant. -/
theorem SwapInv.perform (h : SwapInv s) {op : IndexOp V} (hop : s.op = some op)
    (hg : ActivatesCompleted s .next) (hs : s.perform retriever baseDir op = some s') : SwapInv s' := by
  obtain ⟨hnone, hinv⟩ := h.op op hop
  have hfiles : StagingInv s := h.toStagingInv
  cases SwapState.performed hs with
  | ended ho => exact hfiles.finish ho
  | mkdir =>
    have hmade : StagingInv { s with staging := some (s.staging.getD ⟨none, none⟩) } := by
      refine ⟨hfiles.completed_lt, fun f g hf hg => ?_⟩
      cases hstaging : s.staging with
      | none =>
        rw [hstaging] at hf
        cases hf
      | some d =>
        rw [hstaging] at hf hg
        exact hfiles.staging f g (hstaging ▸ hf) (hstaging ▸ hg)
    exact hmade.goOn hnone hinv
  | embed hbuild => exact hfiles.goOn hnone hinv
  | @writeIndex n b d hd =>
    have hwritten : StagingInv { s with staging := some { d with index := some ⟨n, b.vectors⟩ } } := by
      refine ⟨hfiles.completed_lt, fun f g hf _ hmem => ?_⟩
      -- the build under way has not run to completion
      obtain rfl := Option.some.inj hf
      exact absurd hmem hinv.2
    refine hwritten.goOn hnone ⟨hinv, fun f hf => ?_⟩
    obtain rfl := Option.some.inj hf
    rfl
  | @writeIdMap n b d hd =>
    obtain ⟨hbuild, hindex⟩ := hinv
    rw [hd] at hindex
    have hwritten : StagingInv { s with staging := some { d with idMap := some ⟨n, b.idMapFile⟩ } } := by
      refine ⟨hfiles.completed_lt, fun f g hf _ hmem => ?_⟩
      rw [hindex f hf] at hmem
      exact absurd hmem hbuild.2
    refine hwritten.goOn hnone ⟨hbuild, hindex, fun g hg => ?_⟩
    obtain rfl := Option.some.inj hg
    rfl
  | @buildReturn n b =>
    obtain ⟨hbuild, hindex, hidMap⟩ := hinv
    have hcompleted : StagingInv { s with completed := n :: s.completed } := by
      refine ⟨fun m hm => ?_, fun f g hf hg _ => ?_⟩
      · rcases List.mem_cons.mp hm with rfl | hm
        · exact hbuild.1
        · exact hfiles.completed_lt m hm
      · rw [hindex f hf, hidMap g hg]
    exact hcompleted.finish (by simp)
  | findStaging => exact hfiles.goOn hnone trivial
  | skipHealthCheck => exact hfiles.goOn hnone trivial
  | healthCheck hpass => exact hfiles.goOn hnone trivial
  | noBackup hbackup => exact hfiles.goOn hnone trivial
  | rmdirBackup hbackup hempty =>
    have hremoved : StagingInv { s with backup := none } := ⟨hfiles.completed_lt, hfiles.staging⟩
    exact hremoved.goOn hnone trivial
  | noActive hactive => exact hfiles.goOn hnone trivial
  | @renameActive d hd =>
    have hkept : StagingInv { s with active := none, backup := some d } := ⟨hfiles.completed_lt, hfiles.staging⟩
    exact hkept.goOn hnone trivial
  | @renameStaging d hd =>
    have hactivated : StagingInv { s with staging := none, active := some d } :=
      ⟨hfiles.completed_lt, fun _ _ hf => absurd hf (by simp [indexIn])⟩
    refine hactivated.goOn hnone fun f g hf hg' => ?_
    have hmem : f.build ∈ s.completed := by
      refine hg ?_ f (hd ▸ hf) g (hd ▸ hg')
      simp only [SwapState.activates, hop]
    exact ⟨hmem, hfiles.staging f g (hd ▸ hf) (hd ▸ hg') hmem⟩
  | @reload manager hload =>
    obtain ⟨index, raw, -, hread, -⟩ := load_eq_ok hload
    obtain ⟨f, g, hf, hg', -⟩ := files_of_contents hread
    have hloaded : StagingInv { s with manager := manager } := ⟨hfiles.completed_lt, hfiles.staging⟩
    exact hloaded.goOn hnone ⟨f, g, hf, hg', hinv f g hf hg'⟩
  | publish =>
    have hended : StagingInv (s.finish (.swapped true)) := ⟨hfiles.completed_lt, hfiles.staging⟩
    exact hended.idle rfl fun _ => hinv

/-- **Every step keeps the invariant**, if a swap activates an index of a completed build. -/
theorem swapInv_step {l : SwapLabel} (h : SwapInv s) (hg : ActivatesCompleted s l)
    (hs : (swapSystem retriever baseDir).step s l = some s') : SwapInv s' := by
  have hs : s.step retriever baseDir l = some s' := hs
  cases l with
  | callBuild chunks =>
    simp only [SwapState.step] at hs
    split at hs
    · cases hs
    · cases hs
      have hcalled : StagingInv { s with outcome := none, builds := s.builds + 1 } :=
        ⟨fun n hn => Nat.lt_succ_of_lt (h.completed_lt n hn), h.staging⟩
      exact hcalled.goOn rfl ⟨Nat.lt_succ_self _, fun hmem => Nat.lt_irrefl _ (h.completed_lt _ hmem)⟩
  | callSafeSwap skipHealthCheck testSet =>
    simp only [SwapState.step] at hs
    split at hs
    · cases hs
    · cases hs
      have hcalled : StagingInv { s with outcome := none } := ⟨h.completed_lt, h.staging⟩
      exact hcalled.goOn rfl trivial
  | unlinkIndex => exact h.unlink hs
  | unlinkIdMap => exact h.unlink hs
  | next =>
    obtain ⟨op, hop, hs⟩ := Option.bind_eq_some_iff.mp hs
    exact h.perform hop hg hs
  | fail e =>
    simp only [SwapState.step] at hs
    split at hs
    · cases hs
    · cases hs
    · cases hs
      exact h.toStagingInv.finish (by simp)
  | kill =>
    obtain ⟨op, hop, rfl⟩ := Option.map_eq_some_iff.mp hs
    have hnone := (h.op op hop).1
    have hkilled : StagingInv { s with manager := .empty V, op := none } := ⟨h.completed_lt, h.staging⟩
    exact hkilled.idle rfl fun hreturned => by cases hnone.symm.trans hreturned

/-- Only the rename of the staging directory puts something in the place of the active one. -/
theorem swapStep_active {l : SwapLabel} (hs : (swapSystem retriever baseDir).step s l = some s') :
    s'.active = s.active ∨ s'.active = none ∨ s.activates l = true ∧ s'.active = s.staging := by
  have hs : s.step retriever baseDir l = some s' := hs
  cases l with
  | callBuild chunks =>
    simp only [SwapState.step] at hs
    split at hs <;> cases hs
    exact .inl rfl
  | callSafeSwap skipHealthCheck testSet =>
    simp only [SwapState.step] at hs
    split at hs <;> cases hs
    exact .inl rfl
  | unlinkIndex =>
    obtain ⟨d, -, -, rfl⟩ := SwapState.unlink_eq_some hs
    exact .inl rfl
  | unlinkIdMap =>
    obtain ⟨d, -, -, rfl⟩ := SwapState.unlink_eq_some hs
    exact .inl rfl
  | next =>
    obtain ⟨op, hop, hs⟩ := Option.bind_eq_some_iff.mp hs
    cases SwapState.performed hs with
    | renameActive hd => exact .inr (.inl rfl)
    | renameStaging hd =>
      refine .inr (.inr ⟨?_, hd.symm⟩)
      simp only [SwapState.activates, hop]
    | _ => exact .inl rfl
  | fail e =>
    simp only [SwapState.step] at hs
    split at hs <;> cases hs
    exact .inl rfl
  | kill =>
    obtain ⟨op, -, rfl⟩ := Option.map_eq_some_iff.mp hs
    exact .inl rfl

/-- **If no swap activates an ID map beside the index of a build that has not run to completion, then whenever a swap
returns True the active directory holds the index and the ID map of one completed build.** -/
theorem active_of_completed (retriever : FAISSRetriever V S) (baseDir : Text) (ls : List SwapLabel)
    (h : (swapSystem retriever baseDir).Each ActivatesCompleted (SwapState.start V) ls) :
    (swapSystem retriever baseDir).Always SwapState.ActiveComplete (SwapState.start V) ls :=
  System.always_of_each swapInv_step SwapInv.active swapInv_start h

end

namespace SwapSample

/-- A build of the sample chunk that nothing stops. -/
def build : List SwapLabel := [.callBuild [RetrievalSample.chunk], .next, .next, .next, .next, .next]

/-- A build of two chunks that is killed after it has written the index. -/
def killedBuild : List SwapLabel :=
  [.callBuild [RetrievalSample.chunk, RetrievalSample.chunk], .next, .next, .next, .kill]

/-- A swap without a health check, where there is no active directory yet. -/
def swap : List SwapLabel := [.callSafeSwap true none, .next, .next, .next, .next, .next, .next]

end SwapSample

/-- A build and a swap. -/
theorem active_of_completed_swap :
    (swapSystem RetrievalSample.retriever []).Always SwapState.ActiveComplete (SwapState.start Unit)
      (SwapSample.build ++ SwapSample.swap) :=
  active_of_completed RetrievalSample.retriever [] _ (by decide)

/-- The swap after the killed build activates its index of two chunks with the ID map of the first build. -/
theorem swap_activates_two_builds :
    ¬ ∀ ls, (swapSystem RetrievalSample.retriever []).Always SwapState.ActiveComplete (SwapState.start Unit) ls := by
  intro h
  have hend : ((swapSystem RetrievalSample.retriever []).run (SwapState.start Unit)
      (SwapSample.build ++ SwapSample.killedBuild ++ SwapSample.swap)).map
        (fun t => (t.outcome, (indexIn t.active).map BuiltFile.build, (idMapIn t.active).map BuiltFile.build)) =
      some (some (.swapped true), some 1, some 0) := by decide
  obtain ⟨t, hrun, ht⟩ := Option.map_eq_some_iff.mp hend
  obtain ⟨hreturned, ht⟩ := Prod.mk.inj ht
  obtain ⟨hindex, hidMap⟩ := Prod.mk.inj ht
  obtain ⟨f, g, hf, hg, -, hsame⟩ := (h _).last hrun hreturned
  rw [hf] at hindex
  rw [hg] at hidMap
  have hone : f.build = 1 := Option.some.inj hindex
  have hzero : g.build = 0 := Option.some.inj hidMap
  omega

end ComplianceLoop
