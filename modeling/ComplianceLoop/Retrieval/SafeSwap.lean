import ComplianceLoop.Retrieval.Retriever
import ComplianceLoop.Transition.Runs

/-!
# Building and swapping on disk (`retrieval/index_manager.py`)

`build` and `safe_swap` one file operation at a time, on the directories `index_staging`, `index_active` and
`index_backup`. The calls come one after the other; the call under way can fail at any operation and be killed before
any, and the files stay as they are then. Every file carries the number of the build call that wrote it.

`SwapState.performed` says what an operation can have done. `run_build` and `run_safeSwap` tie the operations to the
functions: a build call that nothing stops leaves the files of `build`, and a swap of files that pass the health check
and load, which nothing stops, returns True.
-/

set_option autoImplicit false

namespace ComplianceLoop

open PyLib Transition

/-- A file, and the number of the build call that wrote it. -/
structure BuiltFile (α : Type) where
  build : Nat
  content : α
  deriving DecidableEq

/-- An index directory. -/
abbrev IndexDir (V : Type) := IndexFiles (BuiltFile (List V)) (BuiltFile IdMapFile)

namespace IndexDir

variable {V : Type}

/-- What a read of the two files gives. -/
def contents : Option (IndexDir V) → IndexFiles (List V) IdMapFile
  | none => ⟨none, none⟩
  | some d => ⟨d.index.map BuiltFile.content, d.idMap.map BuiltFile.content⟩

/-- Whether the directory holds no file. -/
def isEmpty (d : IndexDir V) : Bool := d.index.isNone && d.idMap.isNone

/-- `rename`: what is at the target afterwards. A directory can replace an empty one only. -/
def rename (src dst : Option (IndexDir V)) : Except PyExc (IndexDir V) :=
  match src, dst with
  | none, _ => raise .osError "[Errno 2] No such file or directory".toList
  | some d, none => .ok d
  | some d, some old => if isEmpty old then .ok d else raise .osError "[Errno 39] Directory not empty".toList

end IndexDir

/-! ## `health_check` -/

/-- An item of the golden test set. -/
structure GoldenItem where
  query : Text
  expectedSourceDocumentId : Text

section

variable {V S : Type}

/-- Whether the first result of the query is of the expected document. -/
def FAISSRetriever.passes (retriever : FAISSRetriever V S) (item : GoldenItem) : Bool :=
  match retriever.query item.query 1 with
  | .ok (r :: _) => r.sourceDocumentId = .str item.expectedSourceDocumentId
  | _ => false

/-- `health_check`, with the golden test set if there is one: at least nine queries of ten pass. -/
def healthCheck (retriever : FAISSRetriever V S) (checkDir : Text) (testSet : Option (List GoldenItem))
    (files : IndexFiles (List V) IdMapFile) : Except PyExc Bool :=
  match testSet with
  | none => .ok true
  | some testSet =>
    match (IndexManager.empty V).load checkDir files with
    | (.error e, _) => if e.type = .osError then .ok false else .error e
    | (.ok (), manager) =>
      let passed := testSet.countP (FAISSRetriever.passes { retriever with manager := manager })
      .ok (0 < testSet.length && 9 * testSet.length ≤ 10 * passed)

end

/-! ## The operations of the two calls -/

/-- The next operation of the call under way. -/
inductive IndexOp (V : Type) where
  | mkdir (n : Nat) (chunks : List TextChunk)
  | embed (n : Nat) (chunks : List TextChunk)
  | writeIndex (n : Nat) (b : BuildState V)
  | writeIdMap (n : Nat) (b : BuildState V)
  | buildReturn (n : Nat) (b : BuildState V)
  | findStaging (skipHealthCheck : Bool) (testSet : Option (List GoldenItem))
  | healthCheck (testSet : Option (List GoldenItem))
  | rmtreeBackup
  | renameActive
  | renameStaging
  | reload
  | publish

/-- How a call ended. -/
inductive IndexOutcome where
  | built (count : Nat)
  | swapped (result : Bool)
  | raised (e : PyExc)
  deriving DecidableEq

/-- The directories and the manager, the next operation of the call under way and how the last call ended, and the
build calls: how many there were, and those that ran to completion. -/
structure SwapState (V : Type) where
  staging : Option (IndexDir V)
  active : Option (IndexDir V)
  backup : Option (IndexDir V)
  manager : IndexManager V
  op : Option (IndexOp V)
  outcome : Option IndexOutcome
  builds : Nat
  completed : List Nat

/-- What happens next. -/
inductive SwapLabel where
  | callBuild (chunks : List TextChunk)
  | callSafeSwap (skipHealthCheck : Bool) (testSet : Option (List GoldenItem))
  /-- `rmtree` removes the index, or the ID map, of the backup. -/
  | unlinkIndex
  | unlinkIdMap
  /-- The next operation, which succeeds where it can. -/
  | next
  /-- The next operation raises. -/
  | fail (e : PyExc)
  | kill

namespace SwapState

variable {V S : Type}

/-- No directory and no call yet. -/
def start (V : Type) : SwapState V := ⟨none, none, none, .empty V, none, none, 0, []⟩

/-- The call goes on with this operation. -/
def goOn (s : SwapState V) (op : IndexOp V) : SwapState V := { s with op := some op }

/-- The call ends. -/
def finish (s : SwapState V) (outcome : IndexOutcome) : SwapState V := { s with op := none, outcome := some outcome }

/-- One operation. -/
def perform (retriever : FAISSRetriever V S) (baseDir : Text) (s : SwapState V) : IndexOp V → Option (SwapState V)
  | .mkdir n chunks =>
    if chunks.isEmpty then some (s.finish (.raised ⟨.valueError, "Cannot build index from empty chunk list.".toList⟩))
    else some ({ s with staging := some (s.staging.getD ⟨none, none⟩) }.goOn (.embed n chunks))
  | .embed n chunks =>
    match buildIndex retriever.model chunks with
    | .error e => some (s.finish (.raised e))
    | .ok b => some (s.goOn (.writeIndex n b))
  | .writeIndex n b =>
    s.staging.map fun d =>
      { s with staging := some { d with index := some ⟨n, b.vectors⟩ } }.goOn (.writeIdMap n b)
  | .writeIdMap n b =>
    s.staging.map fun d =>
      { s with staging := some { d with idMap := some ⟨n, b.idMapFile⟩ } }.goOn (.buildReturn n b)
  | .buildReturn n b => some ({ s with completed := n :: s.completed }.finish (.built b.vectors.length))
  | .findStaging skipHealthCheck testSet =>
    if (IndexDir.contents s.staging).index.isNone then some (s.finish (.swapped false))
    else some (s.goOn (if skipHealthCheck then .rmtreeBackup else .healthCheck testSet))
  | .healthCheck testSet =>
    match ComplianceLoop.healthCheck retriever (baseDir ++ "/index_staging".toList) testSet
        (IndexDir.contents s.staging) with
    | .error e => some (s.finish (.raised e))
    | .ok passed => some (if passed then s.goOn .rmtreeBackup else s.finish (.swapped false))
  | .rmtreeBackup =>
    match s.backup with
    | none => some (s.goOn .renameActive)
    -- the directory itself is removed when its files are
    | some d => if IndexDir.isEmpty d then some ({ s with backup := none }.goOn .renameActive) else none
  | .renameActive =>
    match s.active with
    | none => some (s.goOn .renameStaging)
    | some d =>
      match IndexDir.rename (some d) s.backup with
      | .error e => some (s.finish (.raised e))
      | .ok d => some ({ s with active := none, backup := some d }.goOn .renameStaging)
  | .renameStaging =>
    match IndexDir.rename s.staging s.active with
    | .error e => some (s.finish (.raised e))
    | .ok d => some ({ s with staging := none, active := some d }.goOn .reload)
  | .reload =>
    match s.manager.load (baseDir ++ "/index_active".toList) (IndexDir.contents s.active) with
    | (.error e, _) => some (s.finish (.raised e))
    | (.ok (), manager) => some ({ s with manager := manager }.goOn .publish)
  -- a signal that cannot be published is logged only
  | .publish => some (s.finish (.swapped true))

/-- `rmtree` removes a file of the backup. -/
def unlink (s : SwapState V) (remaining : IndexDir V → IndexDir V) : Option (SwapState V) :=
  match s.op, s.backup with
  | some .rmtreeBackup, some d => some { s with backup := some (remaining d) }
  | _, _ => none

/-- What happens next, if it can. -/
def step (retriever : FAISSRetriever V S) (baseDir : Text) (s : SwapState V) : SwapLabel → Option (SwapState V)
  | .callBuild chunks =>
    if s.op.isSome then none
    else some ({ s with outcome := none, builds := s.builds + 1 }.goOn (.mkdir s.builds chunks))
  | .callSafeSwap skipHealthCheck testSet =>
    if s.op.isSome then none else some ({ s with outcome := none }.goOn (.findStaging skipHealthCheck testSet))
  | .unlinkIndex => s.unlink fun d => { d with index := none }
  | .unlinkIdMap => s.unlink fun d => { d with idMap := none }
  | .next => s.op.bind (s.perform retriever baseDir)
  | .fail e =>
    match s.op with
    | none | some .publish => none
    | some _ => some (s.finish (.raised e))
  | .kill => s.op.map fun _ => { s with manager := .empty V, op := none }

end SwapState

/-- The calls as a system. -/
def swapSystem {V S : Type} (retriever : FAISSRetriever V S) (baseDir : Text) : System (SwapState V) SwapLabel :=
  ⟨SwapState.step retriever baseDir⟩

/-! ## What an operation does -/

/-- What an operation can have done: the call has ended, but not by a swap that returned True, or it goes on. -/
inductive Performed {V S : Type} (retriever : FAISSRetriever V S) (baseDir : Text) (s : SwapState V) :
    IndexOp V → SwapState V → Prop where
  | ended {op : IndexOp V} {outcome : IndexOutcome} (h : outcome ≠ .swapped true) :
      Performed retriever baseDir s op (s.finish outcome)
  | mkdir {n : Nat} {chunks : List TextChunk} :
      Performed retriever baseDir s (.mkdir n chunks)
        ({ s with staging := some (s.staging.getD ⟨none, none⟩) }.goOn (.embed n chunks))
  | embed {n : Nat} {chunks : List TextChunk} {b : BuildState V} (h : buildIndex retriever.model chunks = .ok b) :
      Performed retriever baseDir s (.embed n chunks) (s.goOn (.writeIndex n b))
  | writeIndex {n : Nat} {b : BuildState V} {d : IndexDir V} (h : s.staging = some d) :
      Performed retriever baseDir s (.writeIndex n b)
        ({ s with staging := some { d with index := some ⟨n, b.vectors⟩ } }.goOn (.writeIdMap n b))
  | writeIdMap {n : Nat} {b : BuildState V} {d : IndexDir V} (h : s.staging = some d) :
      Performed retriever baseDir s (.writeIdMap n b)
        ({ s with staging := some { d with idMap := some ⟨n, b.idMapFile⟩ } }.goOn (.buildReturn n b))
  | buildReturn {n : Nat} {b : BuildState V} :
      Performed retriever baseDir s (.buildReturn n b)
        ({ s with completed := n :: s.completed }.finish (.built b.vectors.length))
  | findStaging {testSet : Option (List GoldenItem)} :
      Performed retriever baseDir s (.findStaging false testSet) (s.goOn (.healthCheck testSet))
  | skipHealthCheck {testSet : Option (List GoldenItem)} :
      Performed retriever baseDir s (.findStaging true testSet) (s.goOn .rmtreeBackup)
  | healthCheck {testSet : Option (List GoldenItem)}
      (h : ComplianceLoop.healthCheck retriever (baseDir ++ "/index_staging".toList) testSet
        (IndexDir.contents s.staging) = .ok true) :
      Performed retriever baseDir s (.healthCheck testSet) (s.goOn .rmtreeBackup)
  | noBackup (h : s.backup = none) : Performed retriever baseDir s .rmtreeBackup (s.goOn .renameActive)
  | rmdirBackup {d : IndexDir V} (h : s.backup = some d) (hempty : IndexDir.isEmpty d = true) :
      Performed retriever baseDir s .rmtreeBackup ({ s with backup := none }.goOn .renameActive)
  | noActive (h : s.active = none) : Performed retriever baseDir s .renameActive (s.goOn .renameStaging)
  | renameActive {d : IndexDir V} (h : s.active = some d) :
      Performed retriever baseDir s .renameActive
        ({ s with active := none, backup := some d }.goOn .renameStaging)
  | renameStaging {d : IndexDir V} (h : s.staging = some d) :
      Performed retriever baseDir s .renameStaging ({ s with staging := none, active := some d }.goOn .reload)
  | reload {manager : IndexManager V}
      (h : s.manager.load (baseDir ++ "/index_active".toList) (IndexDir.contents s.active) = (.ok (), manager)) :
      Performed retriever baseDir s .reload ({ s with manager := manager }.goOn .publish)
  | publish : Performed retriever baseDir s .publish (s.finish (.swapped true))

/-- A directory is renamed as it is. -/
theorem IndexDir.rename_eq_ok {V : Type} {src dst : Option (IndexDir V)} {d : IndexDir V}
    (h : IndexDir.rename src dst = .ok d) : src = some d := by
  unfold IndexDir.rename at h
  split at h
  · cases h
  · cases h
    rfl
  · split at h
    · cases h
      rfl
    · cases h

section

variable {V S : Type} {retriever : FAISSRetriever V S} {baseDir : Text} {s s' : SwapState V}

/-- **What an operation does**, from the code of all operations. -/
theorem SwapState.performed {op : IndexOp V} (h : s.perform retriever baseDir op = some s') :
    Performed retriever baseDir s op s' := by
  cases op with
  | mkdir n chunks =>
    simp only [SwapState.perform] at h
    split at h <;> cases h
    · exact .ended (by simp)
    · exact .mkdir
  | embed n chunks =>
    simp only [SwapState.perform] at h
    split at h <;> cases h
    · exact .ended (by simp)
    · exact .embed ‹_›
  | writeIndex n b =>
    obtain ⟨d, hd, rfl⟩ := Option.map_eq_some_iff.mp h
    exact .writeIndex hd
  | writeIdMap n b =>
    obtain ⟨d, hd, rfl⟩ := Option.map_eq_some_iff.mp h
    exact .writeIdMap hd
  | buildReturn n b =>
    cases h
    exact .buildReturn
  | findStaging skipHealthCheck testSet =>
    simp only [SwapState.perform] at h
    split at h <;> cases h
    · exact .ended (by simp)
    · cases skipHealthCheck
      · exact .findStaging
      · exact .skipHealthCheck
  | healthCheck testSet =>
    simp only [SwapState.perform] at h
    split at h
    · cases h
      exact .ended (by simp)
    · rename_i passed hcheck
      cases passed <;> cases h
      · exact .ended (by simp)
      · exact .healthCheck hcheck
  | rmtreeBackup =>
    simp only [SwapState.perform] at h
    split at h
    · cases h
      exact .noBackup ‹_›
    · split at h <;> cases h
      exact .rmdirBackup ‹_› ‹_›
  | renameActive =>
    simp only [SwapState.perform] at h
    split at h
    · cases h
      exact .noActive ‹_›
    · rename_i d hactive
      split at h
      · cases h
        exact .ended (by simp)
      · rename_i d' hrename
        cases h
        obtain rfl := Option.some.inj (IndexDir.rename_eq_ok hrename)
        exact .renameActive hactive
  | renameStaging =>
    simp only [SwapState.perform] at h
    split at h
    · cases h
      exact .ended (by simp)
    · rename_i d hrename
      cases h
      exact .renameStaging (IndexDir.rename_eq_ok hrename)
  | reload =>
    simp only [SwapState.perform] at h
    split at h <;> cases h
    · exact .ended (by simp)
    · exact .reload ‹_›
  | publish =>
    cases h
    exact .publish

/-- A removed file of the backup. -/
theorem SwapState.unlink_eq_some {remaining : IndexDir V → IndexDir V} (h : s.unlink remaining = some s') :
    ∃ d, s.op = some .rmtreeBackup ∧ s.backup = some d ∧ s' = { s with backup := some (remaining d) } := by
  unfold SwapState.unlink at h
  split at h <;> cases h
  exact ⟨_, ‹_›, ‹_›, rfl⟩

end

/-! ## Calls that nothing stops -/

section

variable {V S : Type} {retriever : FAISSRetriever V S} {baseDir : Text}

theorem run_next {s s' : SwapState V} {op : IndexOp V} {ls : List SwapLabel} (hop : s.op = some op)
    (h : s.perform retriever baseDir op = some s') :
    (swapSystem retriever baseDir).run s (.next :: ls) = (swapSystem retriever baseDir).run s' ls := by
  have hstep : (swapSystem retriever baseDir).step s .next = some s' := by
    show s.op.bind (s.perform retriever baseDir) = some s'
    rw [hop]
    exact h
  rw [System.run, hstep]
  rfl

/-- **A build call that nothing stops leaves the files of `build`**, and has run to completion. -/
theorem run_build {s : SwapState V} {chunks : List TextChunk} {count : Nat} {files : IndexFiles (List V) IdMapFile}
    (hidle : s.op = none) (h : build retriever.model chunks (IndexDir.contents s.staging) = (.ok count, files)) :
    ∃ t, (swapSystem retriever baseDir).run s [.callBuild chunks, .next, .next, .next, .next, .next] = some t ∧
      IndexDir.contents t.staging = files ∧ t.outcome = some (.built count) ∧ s.builds ∈ t.completed := by
  unfold build at h
  cases hempty : chunks.isEmpty with
  | true =>
    rw [hempty, if_pos rfl] at h
    cases h
  | false =>
    rw [hempty, if_neg Bool.false_ne_true] at h
    cases hbuild : buildIndex retriever.model chunks with
    | error e =>
      rw [hbuild] at h
      cases h
    | ok b =>
      rw [hbuild] at h
      obtain ⟨hcount, rfl⟩ := Prod.mk.inj h
      obtain rfl := Except.ok.inj hcount
      refine ⟨{ s with
        staging := some ⟨some ⟨s.builds, b.vectors⟩, some ⟨s.builds, b.idMapFile⟩⟩
        outcome := some (.built b.vectors.length)
        builds := s.builds + 1
        completed := s.builds :: s.completed }, ?_, rfl, rfl, List.mem_cons_self⟩
      simp [swapSystem, System.run, SwapState.step, SwapState.perform, SwapState.goOn, SwapState.finish, hidle,
        hempty, hbuild]

/-- The swap after the checks: the renames, the reload and the signal. -/
theorem run_renames (retriever : FAISSRetriever V S) (baseDir : Text) {s : SwapState V} {d : IndexDir V}
    {m : IndexManager V} (hop : s.op = some .renameActive) (hstaging : s.staging = some d) (hbackup : s.backup = none)
    (hload : s.manager.load (baseDir ++ "/index_active".toList) (IndexDir.contents (some d)) = (.ok (), m)) :
    ∃ t, (swapSystem retriever baseDir).run s [.next, .next, .next, .next] = some t ∧
      t.outcome = some (.swapped true) ∧ t.staging = none ∧ t.active = some d ∧ t.backup = s.active ∧
      t.manager = m := by
  let kept : SwapState V := { s with active := none, backup := s.active }
  let renamed : SwapState V := { kept with staging := none, active := some d }
  have hactive : s.perform retriever baseDir .renameActive = some (kept.goOn .renameStaging) := by
    unfold SwapState.perform
    cases hactive : s.active with
    | none => simp only [SwapState.goOn, kept, hactive, hbackup]
    | some old => simp only [kept, hactive, hbackup, IndexDir.rename]
  have hrename : (kept.goOn .renameStaging).perform retriever baseDir .renameStaging = some (renamed.goOn .reload) := by
    show (match IndexDir.rename s.staging none with | .error e => _ | .ok d => _) = _
    rw [hstaging]
    rfl
  have hreload : (renamed.goOn .reload).perform retriever baseDir .reload =
      some ({ renamed with manager := m }.goOn .publish) := by
    unfold SwapState.perform
    simp only [SwapState.goOn, renamed, kept, hload]
  refine ⟨({ renamed with manager := m }.goOn .publish).finish (.swapped true), ?_, rfl, rfl, rfl, rfl, rfl⟩
  rw [run_next hop hactive, run_next rfl hrename, run_next rfl hreload, run_next rfl rfl]
  rfl

/-- **A swap that nothing stops activates a staging directory that passes the health check and loads**, and keeps the
directory that was active as the backup. -/
theorem run_safeSwap {s : SwapState V} {d : IndexDir V} {testSet : Option (List GoldenItem)} {m : IndexManager V}
    (hidle : s.op = none) (hstaging : s.staging = some d)
    (hpass : healthCheck retriever (baseDir ++ "/index_staging".toList) testSet (IndexDir.contents (some d)) = .ok true)
    (hload : s.manager.load (baseDir ++ "/index_active".toList) (IndexDir.contents (some d)) = (.ok (), m)) :
    ∃ ls t, (swapSystem retriever baseDir).run s (.callSafeSwap false testSet :: .next :: .next :: ls) = some t ∧
      t.outcome = some (.swapped true) ∧ t.staging = none ∧ t.active = some d ∧ t.backup = s.active ∧
      t.manager = m := by
  obtain ⟨index, raw, idMap, hfiles, -⟩ := load_eq_ok hload
  have hindex : (IndexDir.contents (some d)).index.isNone = false := by rw [hfiles]; rfl
  let called : SwapState V := { s with op := some (.findStaging false testSet), outcome := none }
  have hcall : (swapSystem retriever baseDir).step s (.callSafeSwap false testSet) = some called := by
    show (if s.op.isSome then none else some called) = some called
    rw [hidle]
    rfl
  have hfind : called.perform retriever baseDir (.findStaging false testSet) =
      some (called.goOn (.healthCheck testSet)) := by
    show (if (IndexDir.contents s.staging).index.isNone then _ else _) = _
    rw [hstaging, hindex]
    rfl
  have hcheck : (called.goOn (.healthCheck testSet)).perform retriever baseDir (.healthCheck testSet) =
      some (called.goOn .rmtreeBackup) := by
    unfold SwapState.perform
    simp only [SwapState.goOn, called, hstaging, hpass, if_true]
  have hchecked : ∀ ls, (swapSystem retriever baseDir).run s (.callSafeSwap false testSet :: .next :: .next :: ls) =
      (swapSystem retriever baseDir).run (called.goOn .rmtreeBackup) ls := by
    intro ls
    rw [System.run, hcall]
    exact (run_next rfl hfind).trans (run_next rfl hcheck)
  obtain ⟨t, hrun, ht⟩ := run_renames retriever baseDir
    (s := { called with backup := none }.goOn .renameActive) rfl hstaging rfl hload
  cases hbackup : s.backup with
  | none =>
    refine ⟨.next :: [.next, .next, .next, .next], t, ?_, ht⟩
    have hnone : (called.goOn .rmtreeBackup).perform retriever baseDir .rmtreeBackup =
        some ({ called with backup := none }.goOn .renameActive) := by
      simp only [SwapState.perform, SwapState.goOn, called, hbackup]
    rw [hchecked, run_next rfl hnone, hrun]
  | some old =>
    -- the files of the old backup are removed before the directory
    refine ⟨.unlinkIndex :: .unlinkIdMap :: .next :: [.next, .next, .next, .next], t, ?_, ht⟩
    have hempty : ({ called with backup := some ⟨none, none⟩ }.goOn .rmtreeBackup).perform retriever baseDir
        .rmtreeBackup = some ({ called with backup := none }.goOn .renameActive) := rfl
    rw [hchecked, ← hrun, ← run_next rfl hempty]
    simp only [System.run, swapSystem, SwapState.step, SwapState.unlink, SwapState.goOn, called, hbackup,
      Option.bind_some]

end

end ComplianceLoop
