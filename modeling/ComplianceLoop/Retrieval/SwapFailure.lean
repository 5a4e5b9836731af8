import ComplianceLoop.Retrieval.SafeSwap

/-!
# A swap that fails

`safeSwap` is a whole call of `safe_swap` on directories whose files may be missing or unreadable, with an exception at
any of its file operations. Nothing is undone: after `index_active` has been renamed, an exception at the rename of
`index_staging` leaves no active index, and a load that raises leaves the new files active. The manager is as before and
`index_active` is what `index_backup` holds then, for a rollback by hand (`failed_swap`). `exists_run_safeSwap` ties the
call to the runs of its operations.
-/

set_option autoImplicit false

namespace ComplianceLoop

open PyLib Transition

/-- `faiss.read_index` and `json.load` of a file with this content; they raise for a file that they cannot read. -/
structure IndexReader (ι κ V : Type) where
  readIndex : ι → Except PyExc (List V)
  readJson : κ → Except PyExc IdMapFile

/-- Where `safe_swap` can raise: the check for a staging index, and its file operations with the checks before them. -/
inductive SwapStatement where
  | findStaging
  | healthCheck
  | rmtreeBackup
  | renameActive
  | renameStaging
  | reload
  deriving DecidableEq

/-- A call: its argument and the golden test set if there is one, what raises in it, and which files of the backup an
`rmtree` that raises has removed. -/
structure SwapCall where
  skipHealthCheck : Bool
  testSet : Option (List GoldenItem)
  raises : SwapStatement → Option PyExc
  unlinksIndex : Bool
  unlinksIdMap : Bool

/-- The directories and the manager. -/
structure SwapDirs (ι κ V : Type) where
  staging : Option (IndexFiles ι κ)
  active : Option (IndexFiles ι κ)
  backup : Option (IndexFiles ι κ)
  manager : IndexManager V

variable {ι κ V S : Type}

/-- The files at the path of a directory; there are none where it does not exist. -/
def filesAt (d : Option (IndexFiles ι κ)) : IndexFiles ι κ := d.getD ⟨none, none⟩

/-- `rename` of a directory that may have unreadable files: what is at the target afterwards. -/
def renameDir (src dst : Option (IndexFiles ι κ)) : Except PyExc (IndexFiles ι κ) :=
  match src, dst with
  | none, _ => raise .osError "[Errno 2] No such file or directory".toList
  | some d, none => .ok d
  | some d, some old =>
    if old.index.isNone && old.idMap.isNone then .ok d else raise .osError "[Errno 39] Directory not empty".toList

/-- `load`, of files that may be unreadable. -/
def IndexManager.loadFrom (reader : IndexReader ι κ V) (loadDir : Text) (files : IndexFiles ι κ) (m : IndexManager V) :
    Except PyExc Unit × IndexManager V :=
  match files.index, files.idMap with
  | none, _ => (raise .osError ("FAISS index not found at ".toList ++ loadDir ++ "/compliance.index. ".toList ++
      "Run 'make build-index' to build the initial index.".toList), m)
  | some _, none => (raise .osError ("ID map not found at ".toList ++ loadDir ++ "/id_map.json.".toList), m)
  | some index, some idMap =>
    match reader.readIndex index with
    | .error e => (.error e, m)
    | .ok newIndex =>
      match (reader.readJson idMap).bind readIdMap with
      | .error e => (.error e, m)
      | .ok newIdMap => (.ok (), ⟨some newIndex, newIdMap, some loadDir⟩)

/-- `health_check`, of files that may be unreadable: a file that is missing is caught, what a read raises is not. -/
def healthCheckOf (reader : IndexReader ι κ V) (retriever : FAISSRetriever V S) (checkDir : Text)
    (testSet : Option (List GoldenItem)) (files : IndexFiles ι κ) : Except PyExc Bool :=
  match testSet with
  | none => .ok true
  | some testSet =>
    if files.index.isNone || files.idMap.isNone then .ok false
    else
      match (IndexManager.empty V).loadFrom reader checkDir files with
      | (.error e, _) => .error e
      | (.ok (), manager) =>
        let passed := testSet.countP (FAISSRetriever.passes { retriever with manager := manager })
        .ok (0 < testSet.length && 9 * testSet.length ≤ 10 * passed)

/-! ## The call -/

namespace SwapCall

variable (c : SwapCall)

/-- The checks before the swap: whether it goes on. -/
def check (reader : IndexReader ι κ V) (retriever : FAISSRetriever V S) (baseDir : Text) (s : SwapDirs ι κ V) :
    Except PyExc Bool :=
  match c.raises .findStaging with
  | some e => .error e
  | none =>
    if (filesAt s.staging).index.isNone then .ok false
    else if c.skipHealthCheck then .ok true
    else
      match c.raises .healthCheck with
      | some e => .error e
      | none => healthCheckOf reader retriever (baseDir ++ "/index_staging".toList) c.testSet (filesAt s.staging)

/-- `rmtree` of the backup. -/
def rmtreeBackup (s : SwapDirs ι κ V) : Except PyExc Unit × SwapDirs ι κ V :=
  match c.raises .rmtreeBackup with
  | some e =>
    (.error e, { s with
      backup := s.backup.map fun d =>
        ⟨if c.unlinksIndex then none else d.index, if c.unlinksIdMap then none else d.idMap⟩ })
  | none => (.ok (), { s with backup := none })

/-- `index_active`, if there is one, becomes the backup. -/
def renameActive (s : SwapDirs ι κ V) : Except PyExc Unit × SwapDirs ι κ V :=
  match c.raises .renameActive, s.active with
  | some e, _ => (.error e, s)
  | none, none => (.ok (), s)
  | none, some old =>
    match renameDir (some old) s.backup with
    | .error e => (.error e, s)
    | .ok d => (.ok (), { s with active := none, backup := some d })

/-- `index_staging` becomes the active directory. -/
def renameStaging (s : SwapDirs ι κ V) : Except PyExc Unit × SwapDirs ι κ V :=
  match c.raises .renameStaging with
  | some e => (.error e, s)
  | none =>
    match renameDir s.staging s.active with
    | .error e => (.error e, s)
    | .ok d => (.ok (), { s with staging := none, active := some d })

/-- The manager loads the active directory. -/
def reload (reader : IndexReader ι κ V) (baseDir : Text) (s : SwapDirs ι κ V) : Except PyExc Unit × SwapDirs ι κ V :=
  match c.raises .reload with
  | some e => (.error e, s)
  | none =>
    let loaded := s.manager.loadFrom reader (baseDir ++ "/index_active".toList) (filesAt s.active)
    (loaded.1, { s with manager := loaded.2 })

end SwapCall

/-- The second statement runs where the first has returned. -/
def andThen {σ : Type} (first second : σ → Except PyExc Unit × σ) (s : σ) : Except PyExc Unit × σ :=
  match first s with
  | (.ok (), t) => second t
  | (.error e, t) => (.error e, t)

/-- `return True` at the end. -/
def returnTrue {σ : Type} (r : Except PyExc Unit × σ) : Except PyExc Bool × σ := (r.1.map fun _ => true, r.2)

/-- The call after its checks: it raises, returns False, or swaps. A signal that cannot be published is logged only. -/
def SwapCall.proceed (reader : IndexReader ι κ V) (baseDir : Text) (c : SwapCall) (checked : Except PyExc Bool)
    (s : SwapDirs ι κ V) : Except PyExc Bool × SwapDirs ι κ V :=
  match checked with
  | .error e => (.error e, s)
  | .ok false => (.ok false, s)
  | .ok true =>
    returnTrue (andThen c.rmtreeBackup (andThen c.renameActive (andThen c.renameStaging (c.reload reader baseDir))) s)

/-- `safe_swap`: what it returns or raises, and the directories and the manager afterwards. -/
def safeSwap (reader : IndexReader ι κ V) (retriever : FAISSRetriever V S) (baseDir : Text) (c : SwapCall)
    (s : SwapDirs ι κ V) : Except PyExc Bool × SwapDirs ι κ V :=
  c.proceed reader baseDir (c.check reader retriever baseDir s) s

/-! ## What a call can do -/

/-- The call gets past the rename of `index_active`. -/
def SwapCall.Renames (reader : IndexReader ι κ V) (retriever : FAISSRetriever V S) (baseDir : Text) (c : SwapCall)
    (s : SwapDirs ι κ V) : Prop :=
  c.check reader retriever baseDir s = .ok true ∧ c.raises .rmtreeBackup = none ∧ c.raises .renameActive = none

/-- The files are there, can be read, and the ids are integers. -/
def IndexReader.Loadable (reader : IndexReader ι κ V) (files : IndexFiles ι κ) : Prop :=
  ∃ index idMap newIndex raw newIdMap, files = ⟨some index, some idMap⟩ ∧ reader.readIndex index = .ok newIndex ∧
    reader.readJson idMap = .ok raw ∧ readIdMap raw = .ok newIdMap

/-- Past the rename of `index_active`, an exception at the rename of `index_staging` finds that there were no active
files, and otherwise the new files can be loaded, or are the same as the active ones. -/
def SwapCall.LosesNothing (reader : IndexReader ι κ V) (retriever : FAISSRetriever V S) (baseDir : Text) (c : SwapCall)
    (s : SwapDirs ι κ V) : Prop :=
  c.Renames reader retriever baseDir s →
    (c.raises .renameStaging ≠ none → filesAt s.active = ⟨none, none⟩) ∧
      (c.raises .renameStaging = none →
        c.raises .reload = none ∧ reader.Loadable (filesAt s.staging) ∨ filesAt s.staging = filesAt s.active)

/-- The live index is as before, unless the call returns True. -/
def LeavesLive (s : SwapDirs ι κ V) (r : Except PyExc Bool × SwapDirs ι κ V) : Prop :=
  r.1 ≠ .ok true → filesAt r.2.active = filesAt s.active ∧ r.2.manager = s.manager

/-- Unless the call returns True, the manager is as before, and `index_active` is where it was, or has become the
backup; if it returns False, it has done nothing. -/
def KeepsLive (s : SwapDirs ι κ V) (r : Except PyExc Bool × SwapDirs ι κ V) : Prop :=
  r.1 ≠ .ok true →
    r.2.manager = s.manager ∧
      (r.2.active = s.active ∨ r.2.backup = s.active ∧ (r.2.active = none ∨ r.2.active = s.staging)) ∧
      (r.1 = .ok false → r.2 = s)

section

variable {reader : IndexReader ι κ V} {retriever : FAISSRetriever V S} {baseDir : Text} {c : SwapCall}
  {s : SwapDirs ι κ V}

/-- A load either reads everything, or leaves the manager as it is. -/
theorem loadFrom_cases (reader : IndexReader ι κ V) (loadDir : Text) (files : IndexFiles ι κ) (m : IndexManager V) :
    reader.Loadable files ∧ (m.loadFrom reader loadDir files).1 = .ok () ∨
      ¬ reader.Loadable files ∧ ∃ e, m.loadFrom reader loadDir files = (.error e, m) := by
  obtain ⟨index, idMap⟩ := files
  cases index with
  | none =>
    refine .inr ⟨?_, _, rfl⟩
    rintro ⟨_, _, _, _, _, h, -⟩
    cases h
  | some index =>
    cases idMap with
    | none =>
      refine .inr ⟨?_, _, rfl⟩
      rintro ⟨_, _, _, _, _, h, -⟩
      cases h
    | some idMap =>
      unfold IndexManager.loadFrom
      simp only
      cases hindex : reader.readIndex index with
      | error e =>
        refine .inr ⟨?_, e, rfl⟩
        rintro ⟨_, _, _, _, _, h, hi, -⟩
        cases h
        cases hindex.symm.trans hi
      | ok newIndex =>
        cases hjson : reader.readJson idMap with
        | error e =>
          refine .inr ⟨?_, e, rfl⟩
          rintro ⟨_, _, _, _, _, h, -, hj, -⟩
          cases h
          cases hjson.symm.trans hj
        | ok raw =>
          simp only [ok_bind]
          cases hread : readIdMap raw with
          | error e =>
            refine .inr ⟨?_, e, rfl⟩
            rintro ⟨_, _, _, _, _, h, -, hj, hr⟩
            cases h
            obtain rfl := Except.ok.inj (hjson.symm.trans hj)
            cases hread.symm.trans hr
          | ok newIdMap => exact .inl ⟨⟨_, _, _, _, _, rfl, hindex, hjson, hread⟩, rfl⟩

/-- A swap goes on only with a staging directory. -/
theorem staging_of_check (h : c.check reader retriever baseDir s = .ok true) : ∃ d, s.staging = some d := by
  unfold SwapCall.check at h
  split at h
  · cases h
  · split at h
    · cases h
    · rename_i hsome
      cases hstaging : s.staging with
      | none =>
        rw [hstaging] at hsome
        exact absurd rfl hsome
      | some d => exact ⟨d, rfl⟩

/-- The first two renames of a swap that gets past them. -/
theorem renames_eq (hr : c.Renames reader retriever baseDir s)
    (rest : SwapDirs ι κ V → Except PyExc Unit × SwapDirs ι κ V) :
    andThen c.rmtreeBackup (andThen c.renameActive rest) s = rest { s with active := none, backup := s.active } := by
  obtain ⟨-, hrmtree, hrename⟩ := hr
  have hfirst : c.rmtreeBackup s = (.ok (), { s with backup := none }) := by rw [SwapCall.rmtreeBackup, hrmtree]
  have hsecond : c.renameActive { s with backup := none } =
      (.ok (), { s with active := none, backup := s.active }) := by
    unfold SwapCall.renameActive
    rw [hrename]
    cases s.active <;> simp only [renameDir]
  rw [andThen, hfirst]
  simp only [andThen, hsecond]

/-- A call that does not get past the rename of `index_active`. -/
theorem safeSwap_of_not_renames (h : ¬ c.Renames reader retriever baseDir s) :
    let r := safeSwap reader retriever baseDir c s
    r.1 ≠ .ok true ∧ r.2.active = s.active ∧ r.2.manager = s.manager ∧ (r.1 = .ok false → r.2 = s) := by
  intro r
  cases hcheck : c.check reader retriever baseDir s with
  | error e =>
    have hr : r = (.error e, s) := by simp only [r, safeSwap, hcheck, SwapCall.proceed]
    rw [hr]
    exact ⟨by simp, rfl, rfl, fun _ => rfl⟩
  | ok passed =>
    cases passed with
    | false =>
      have hr : r = (.ok false, s) := by simp only [r, safeSwap, hcheck, SwapCall.proceed]
      rw [hr]
      exact ⟨by simp, rfl, rfl, fun _ => rfl⟩
    | true =>
      cases hrmtree : c.raises .rmtreeBackup with
      | some e =>
        have hr : r = (.error e, { s with backup := (c.rmtreeBackup s).2.backup }) := by
          simp only [r, safeSwap, hcheck, SwapCall.proceed, andThen, SwapCall.rmtreeBackup, hrmtree, returnTrue,
            error_map]
        rw [hr]
        exact ⟨by simp, rfl, rfl, fun he => by cases he⟩
      | none =>
        cases hrename : c.raises .renameActive with
        | none => exact absurd ⟨hcheck, hrmtree, hrename⟩ h
        | some e =>
          have hr : r = (.error e, { s with backup := none }) := by
            simp only [r, safeSwap, hcheck, SwapCall.proceed, andThen, SwapCall.rmtreeBackup, hrmtree,
              SwapCall.renameActive, hrename, returnTrue, error_map]
          rw [hr]
          exact ⟨by simp, rfl, rfl, fun he => by cases he⟩

/-- **A call that gets past it**: it raises at the rename of `index_staging`, or the new files are active, and it raises
at the load or returns True. -/
theorem safeSwap_of_renames (h : c.Renames reader retriever baseDir s) :
    let r := safeSwap reader retriever baseDir c s
    (c.raises .renameStaging ≠ none ∧ ∃ e, r = (.error e, { s with active := none, backup := s.active })) ∨
      c.raises .renameStaging = none ∧
        ((¬ (c.raises .reload = none ∧ reader.Loadable (filesAt s.staging)) ∧
            ∃ e, r = (.error e, { s with staging := none, active := s.staging, backup := s.active })) ∨
          (c.raises .reload = none ∧ reader.Loadable (filesAt s.staging)) ∧ r.1 = .ok true) := by
  intro r
  have hr : r = returnTrue
      (andThen c.renameStaging (c.reload reader baseDir) { s with active := none, backup := s.active }) := by
    simp only [r, safeSwap, h.1, SwapCall.proceed, renames_eq h]
  obtain ⟨d, hd⟩ := staging_of_check h.1
  cases hrename : c.raises .renameStaging with
  | some e =>
    refine .inl ⟨Option.some_ne_none e, e, ?_⟩
    rw [hr]
    simp only [andThen, SwapCall.renameStaging, hrename, returnTrue, error_map]
  | none =>
    refine .inr ⟨rfl, ?_⟩
    have hmoved : andThen c.renameStaging (c.reload reader baseDir) { s with active := none, backup := s.active } =
        c.reload reader baseDir { s with staging := none, active := s.staging, backup := s.active } := by
      simp only [andThen, SwapCall.renameStaging, hrename, renameDir, hd]
    rw [hmoved] at hr
    cases hreload : c.raises .reload with
    | some e =>
      refine .inl ⟨fun hn => Option.some_ne_none e hn.1, e, ?_⟩
      rw [hr]
      simp only [SwapCall.reload, hreload, returnTrue, error_map]
    | none =>
      obtain ⟨hload, hok⟩ | ⟨hload, e, he⟩ :=
        loadFrom_cases reader (baseDir ++ "/index_active".toList) (filesAt s.staging) s.manager
      · refine .inr ⟨⟨rfl, hload⟩, ?_⟩
        rw [hr]
        simp only [SwapCall.reload, hreload, hok, returnTrue, ok_map]
      · refine .inl ⟨fun hn => hload hn.2, e, ?_⟩
        rw [hr]
        simp only [SwapCall.reload, hreload, he, returnTrue, error_map]

/-- Whatever fails, the manager and the directory that was active are kept. -/
theorem keepsLive_safeSwap : KeepsLive s (safeSwap reader retriever baseDir c s) := by
  intro hne
  by_cases hr : c.Renames reader retriever baseDir s
  · obtain ⟨-, e, he⟩ | ⟨-, ⟨-, e, he⟩ | ⟨-, htrue⟩⟩ := safeSwap_of_renames hr
    · rw [he]
      exact ⟨rfl, .inr ⟨rfl, .inl rfl⟩, fun hf => by cases hf⟩
    · rw [he]
      exact ⟨rfl, .inr ⟨rfl, .inr rfl⟩, fun hf => by cases hf⟩
    · exact absurd htrue hne
  · obtain ⟨-, hactive, hmanager, hfalse⟩ := safeSwap_of_not_renames hr
    exact ⟨hmanager, .inl hactive, hfalse⟩

/-- When a call leaves the live index as it is. -/
theorem leavesLive_iff :
    LeavesLive s (safeSwap reader retriever baseDir c s) ↔ c.LosesNothing reader retriever baseDir s := by
  by_cases hr : c.Renames reader retriever baseDir s
  · have hkeeps : c.LosesNothing reader retriever baseDir s ↔ _ := ⟨fun h => h hr, fun h _ => h⟩
    rw [hkeeps]
    obtain ⟨hraises, e, he⟩ | ⟨hrename, ⟨hload, e, he⟩ | ⟨hload, htrue⟩⟩ := safeSwap_of_renames hr
    · rw [he]
      refine ⟨fun h => ⟨fun _ => ?_, fun hn => absurd hn hraises⟩, fun h _ => ⟨(h.1 hraises).symm, rfl⟩⟩
      exact (h (by simp)).1.symm
    · rw [he]
      refine ⟨fun h => ⟨fun hn => absurd hrename hn, fun _ => .inr (h (by simp)).1⟩, fun h _ => ⟨?_, rfl⟩⟩
      exact (h.2 hrename).resolve_left hload
    · refine iff_of_true (fun hne => absurd htrue hne) ⟨fun hn => absurd hrename hn, fun _ => .inl hload⟩
  · obtain ⟨-, hactive, hmanager, -⟩ := safeSwap_of_not_renames hr
    exact iff_of_true (fun _ => ⟨congrArg filesAt hactive, hmanager⟩) fun h => absurd h hr

/-- **A call that returns False or raises leaves the manager as it is, and the directory that was active where it was or
as the backup. It leaves the live index as it is exactly when it does not get past the rename of `index_active`, or
loses nothing by it.** -/
theorem failed_swap (reader : IndexReader ι κ V) (retriever : FAISSRetriever V S) (baseDir : Text) (c : SwapCall)
    (s : SwapDirs ι κ V) :
    KeepsLive s (safeSwap reader retriever baseDir c s) ∧
      (LeavesLive s (safeSwap reader retriever baseDir c s) ↔ c.LosesNothing reader retriever baseDir s) :=
  ⟨keepsLive_safeSwap, leavesLive_iff⟩

end

/-! ## The operations of a call -/

/-- The files of builds can be read. -/
def builtReader (V : Type) : IndexReader (BuiltFile (List V)) (BuiltFile IdMapFile) V :=
  ⟨fun f => .ok f.content, fun f => .ok f.content⟩

/-- The directories and the manager of a state. -/
def SwapState.dirs (s : SwapState V) : SwapDirs (BuiltFile (List V)) (BuiltFile IdMapFile) V :=
  ⟨s.staging, s.active, s.backup, s.manager⟩

/-- How a call with this result has ended. -/
def swapOutcome : Except PyExc Bool → IndexOutcome
  | .ok b => .swapped b
  | .error e => .raised e

/-- The operations from this state can end with this result. -/
def CanEnd (retriever : FAISSRetriever V S) (baseDir : Text) (s : SwapState V)
    (r : Except PyExc Bool × SwapDirs (BuiltFile (List V)) (BuiltFile IdMapFile) V) : Prop :=
  ∃ ls t, (swapSystem retriever baseDir).run s ls = some t ∧ t.dirs = r.2 ∧ t.op = none ∧
    t.outcome = some (swapOutcome r.1)

section

variable {retriever : FAISSRetriever V S} {baseDir : Text} {s u : SwapState V} {op : IndexOp V} {c : SwapCall}
  {r : Except PyExc Bool × SwapDirs (BuiltFile (List V)) (BuiltFile IdMapFile) V}

theorem loadFrom_builtReader (loadDir : Text) (d : Option (IndexDir V)) (m : IndexManager V) :
    m.loadFrom (builtReader V) loadDir (filesAt d) = m.load loadDir (IndexDir.contents d) := by
  cases d with
  | none => rfl
  | some d =>
    obtain ⟨index, idMap⟩ := d
    cases index with
    | none => rfl
    | some index =>
      cases idMap with
      | none => rfl
      | some idMap =>
        unfold IndexManager.loadFrom IndexManager.load
        cases hread : readIdMap idMap.content <;>
          simp only [filesAt, builtReader, IndexDir.contents, Option.getD_some, Option.map_some, ok_bind, hread]

/-- An ID map whose ids are no integers is no missing file. -/
theorem readIdMap_error {raw : IdMapFile} {e : PyExc} (h : readIdMap raw = .error e) : e.type = .valueError := by
  obtain ⟨p, -, hp⟩ := mapM_eq_error (map_eq_error.mp h)
  unfold readEntry at hp
  split at hp
  · cases hp
  · exact (Except.error.inj hp) ▸ rfl

theorem healthCheckOf_builtReader (retriever : FAISSRetriever V S) (checkDir : Text)
    (testSet : Option (List GoldenItem)) (d : Option (IndexDir V)) :
    healthCheckOf (builtReader V) retriever checkDir testSet (filesAt d) =
      healthCheck retriever checkDir testSet (IndexDir.contents d) := by
  cases testSet with
  | none => rfl
  | some testSet =>
    unfold healthCheckOf healthCheck
    simp only [loadFrom_builtReader]
    cases d with
    | none => rfl
    | some d =>
      obtain ⟨index, idMap⟩ := d
      cases index with
      | none => rfl
      | some index =>
        cases idMap with
        | none => rfl
        | some idMap =>
          unfold IndexManager.load
          simp only [IndexDir.contents, filesAt, Option.getD_some, Option.isNone_some, Bool.or_self,
            Bool.false_eq_true, if_false, Option.map_some]
          cases hread : readIdMap idMap.content with
          | ok entries => rfl
          | error e =>
            have htype : e.type ≠ .osError := by rw [readIdMap_error hread]; decide
            simp only [if_neg htype]

theorem renameDir_eq (src dst : Option (IndexDir V)) : renameDir src dst = IndexDir.rename src dst := by
  cases src <;> cases dst <;> rfl

/-- A label that is possible, and what follows. -/
theorem CanEnd.step {l : SwapLabel} (hstep : (swapSystem retriever baseDir).step s l = some u)
    (h : CanEnd retriever baseDir u r) : CanEnd retriever baseDir s r := by
  obtain ⟨ls, t, hrun, ht⟩ := h
  exact ⟨l :: ls, t, System.run_cons_eq_some.mpr ⟨u, hstep, hrun⟩, ht⟩

theorem CanEnd.next (hop : s.op = some op) (hperform : s.perform retriever baseDir op = some u)
    (h : CanEnd retriever baseDir u r) : CanEnd retriever baseDir s r := by
  refine CanEnd.step (l := .next) ?_ h
  show s.op.bind (s.perform retriever baseDir) = some u
  rw [hop]
  exact hperform

/-- The call has ended. -/
theorem canEnd_finish (result : Except PyExc Bool) :
    CanEnd retriever baseDir (s.finish (swapOutcome result)) (result, s.dirs) :=
  ⟨[], _, rfl, rfl, rfl, rfl⟩

/-- An operation that ends the call. -/
theorem canEnd_last (result : Except PyExc Bool) (hop : s.op = some op)
    (hperform : s.perform retriever baseDir op = some (s.finish (swapOutcome result))) :
    CanEnd retriever baseDir s (result, s.dirs) := CanEnd.next hop hperform (canEnd_finish result)

/-- Every operation but the last can raise. -/
theorem canEnd_fail (hop : s.op = some op) (hne : op ≠ .publish) (e : PyExc) :
    CanEnd retriever baseDir s (.error e, s.dirs) := by
  refine CanEnd.step (l := .fail e) (u := s.finish (.raised e)) ?_ (canEnd_finish (.error e))
  show SwapState.step retriever baseDir s (.fail e) = _
  simp only [SwapState.step, hop]

/-- The load, and the signal after it. -/
theorem canEnd_reload (c : SwapCall) (hop : s.op = some .reload) :
    CanEnd retriever baseDir s (returnTrue (c.reload (builtReader V) baseDir s.dirs)) := by
  unfold SwapCall.reload
  cases c.raises .reload with
  | some e => exact canEnd_fail hop (by simp) e
  | none =>
    have hload : s.dirs.manager.loadFrom (builtReader V) (baseDir ++ "/index_active".toList) (filesAt s.dirs.active) =
        s.manager.load (baseDir ++ "/index_active".toList) (IndexDir.contents s.active) :=
      loadFrom_builtReader (baseDir ++ "/index_active".toList) s.active s.manager
    simp only [hload]
    cases hl : s.manager.load (baseDir ++ "/index_active".toList) (IndexDir.contents s.active) with
    | mk result manager =>
      cases result with
      | error e =>
        have hkept : manager = s.manager := by
          obtain ⟨-, hok⟩ | ⟨-, e', he⟩ :=
            loadFrom_cases (builtReader V) (baseDir ++ "/index_active".toList) (filesAt s.active) s.manager
          · rw [loadFrom_builtReader, hl] at hok
            cases hok
          · rw [loadFrom_builtReader, hl] at he
            exact (Prod.mk.inj he).2
        subst hkept
        refine canEnd_last (.error e) hop ?_
        simp only [SwapState.perform, hl, swapOutcome]
      | ok loaded =>
        refine CanEnd.next hop (u := { s with manager := manager }.goOn .publish) ?_ ?_
        · simp only [SwapState.perform, hl]
        · exact canEnd_last (.ok true) rfl rfl

theorem canEnd_renameStaging (c : SwapCall) (hop : s.op = some .renameStaging) :
    CanEnd retriever baseDir s (returnTrue (andThen c.renameStaging (c.reload (builtReader V) baseDir) s.dirs)) := by
  unfold andThen SwapCall.renameStaging
  cases c.raises .renameStaging with
  | some e => exact canEnd_fail hop (by simp) e
  | none =>
    have hrename : renameDir s.dirs.staging s.dirs.active = IndexDir.rename s.staging s.active := renameDir_eq _ _
    simp only [hrename]
    cases hr : IndexDir.rename s.staging s.active with
    | error e =>
      refine canEnd_last (.error e) hop ?_
      simp only [SwapState.perform, hr, swapOutcome]
    | ok d =>
      refine CanEnd.next hop (u := { s with staging := none, active := some d }.goOn .reload) ?_ ?_
      · simp only [SwapState.perform, hr]
      · exact canEnd_reload c rfl

theorem canEnd_renameActive (c : SwapCall) (hop : s.op = some .renameActive) :
    CanEnd retriever baseDir s
      (returnTrue (andThen c.renameActive (andThen c.renameStaging (c.reload (builtReader V) baseDir)) s.dirs)) := by
  rw [andThen, SwapCall.renameActive]
  cases c.raises .renameActive with
  | some e => exact canEnd_fail hop (by simp) e
  | none =>
    have hdirs : s.dirs.active = s.active := rfl
    cases ha : s.active with
    | none =>
      simp only [hdirs, ha]
      refine CanEnd.next hop (u := s.goOn .renameStaging) ?_ (canEnd_renameStaging c rfl)
      simp only [SwapState.perform, ha]
    | some old =>
      have hrename : renameDir (some old) s.dirs.backup = IndexDir.rename (some old) s.backup := renameDir_eq _ _
      simp only [hdirs, ha, hrename]
      cases hr : IndexDir.rename (some old) s.backup with
      | error e =>
        refine canEnd_last (.error e) hop ?_
        simp only [SwapState.perform, ha, hr, swapOutcome]
      | ok d =>
        refine CanEnd.next hop (u := { s with active := none, backup := some d }.goOn .renameStaging) ?_
          (canEnd_renameStaging c rfl)
        simp only [SwapState.perform, ha, hr]

/-- A file of the backup is removed, or is not. -/
theorem CanEnd.unlink {d : IndexDir V} (hop : s.op = some .rmtreeBackup) (hd : s.backup = some d)
    (unlinksIndex unlinksIdMap : Bool)
    (h : CanEnd retriever baseDir { s with
      backup := some ⟨if unlinksIndex then none else d.index, if unlinksIdMap then none else d.idMap⟩ } r) :
    CanEnd retriever baseDir s r := by
  have hindex : (swapSystem retriever baseDir).step s .unlinkIndex =
      some { s with backup := some ⟨none, d.idMap⟩ } := by
    show s.unlink _ = _
    simp only [SwapState.unlink, hop, hd]
  have hidMap : ∀ index, (swapSystem retriever baseDir).step { s with backup := some ⟨index, d.idMap⟩ } .unlinkIdMap =
      some { s with backup := some ⟨index, none⟩ } := by
    intro index
    show SwapState.unlink _ _ = _
    simp only [SwapState.unlink, hop]
  have hself : ({ s with backup := some ⟨d.index, d.idMap⟩ } : SwapState V) = s := by rw [← hd]
  cases unlinksIndex <;> cases unlinksIdMap
  · rw [← hself]
    exact h
  · rw [← hself]
    exact CanEnd.step (hidMap d.index) h
  · exact CanEnd.step hindex h
  · exact CanEnd.step hindex (CanEnd.step (hidMap none) h)

theorem canEnd_rmtreeBackup (c : SwapCall) (hop : s.op = some .rmtreeBackup) :
    CanEnd retriever baseDir s
      (returnTrue (andThen c.rmtreeBackup
        (andThen c.renameActive (andThen c.renameStaging (c.reload (builtReader V) baseDir))) s.dirs)) := by
  have hself : s.backup = none → ({ s with backup := none } : SwapState V) = s := fun hb => by rw [← hb]
  have hdirs : s.dirs.backup = s.backup := rfl
  rw [andThen, SwapCall.rmtreeBackup]
  cases c.raises .rmtreeBackup with
  | some e =>
    cases hb : s.backup with
    | none =>
      simp only [hdirs, hb, Option.map_none]
      rw [← hself hb]
      exact canEnd_fail (s := { s with backup := none }) hop (by simp) e
    | some d =>
      simp only [hdirs, hb, Option.map_some]
      refine CanEnd.unlink hop hb c.unlinksIndex c.unlinksIdMap ?_
      exact canEnd_fail (s := { s with backup := some ⟨_, _⟩ }) hop (by simp) e
  | none =>
    have hrest : CanEnd retriever baseDir ({ s with backup := none }.goOn .renameActive)
        (returnTrue (andThen c.renameActive (andThen c.renameStaging (c.reload (builtReader V) baseDir))
          { s.dirs with backup := none })) := canEnd_renameActive c rfl
    cases hb : s.backup with
    | none =>
      rw [hself hb] at hrest
      refine CanEnd.next hop ?_ hrest
      simp only [SwapState.perform, hb]
    | some d =>
      refine CanEnd.unlink hop hb true true ?_
      exact CanEnd.next hop rfl hrest

theorem canEnd_healthCheck (c : SwapCall) (hop : s.op = some (.healthCheck c.testSet)) :
    CanEnd retriever baseDir s (c.proceed (builtReader V) baseDir
      (healthCheckOf (builtReader V) retriever (baseDir ++ "/index_staging".toList) c.testSet (filesAt s.staging))
      s.dirs) := by
  rw [healthCheckOf_builtReader]
  unfold SwapCall.proceed
  cases hcheck : healthCheck retriever (baseDir ++ "/index_staging".toList) c.testSet (IndexDir.contents s.staging) with
  | error e =>
    refine canEnd_last (.error e) hop ?_
    simp only [SwapState.perform, hcheck, swapOutcome]
  | ok passed =>
    cases passed with
    | false =>
      refine canEnd_last (.ok false) hop ?_
      simp only [SwapState.perform, hcheck, Bool.false_eq_true, if_false, swapOutcome]
    | true =>
      refine CanEnd.next hop (u := s.goOn .rmtreeBackup) ?_ (canEnd_rmtreeBackup c rfl)
      simp only [SwapState.perform, hcheck, if_true]

theorem index_filesAt (d : Option (IndexDir V)) : (filesAt d).index.isNone = (IndexDir.contents d).index.isNone := by
  cases d with
  | none => rfl
  | some d => exact Option.isNone_map.symm

theorem canEnd_findStaging (c : SwapCall) (hop : s.op = some (.findStaging c.skipHealthCheck c.testSet)) :
    CanEnd retriever baseDir s (safeSwap (builtReader V) retriever baseDir c s.dirs) := by
  have hstaging : s.dirs.staging = s.staging := rfl
  rw [safeSwap, SwapCall.check]
  cases c.raises .findStaging with
  | some e => exact canEnd_fail hop (by simp) e
  | none =>
    simp only [hstaging, index_filesAt]
    cases hindex : (IndexDir.contents s.staging).index.isNone with
    | true =>
      refine canEnd_last (.ok false) hop ?_
      simp only [SwapState.perform, hindex, if_true, swapOutcome]
    | false =>
      simp only [Bool.false_eq_true, if_false]
      cases hskip : c.skipHealthCheck with
      | true =>
        refine CanEnd.next hop (u := s.goOn .rmtreeBackup) ?_ (canEnd_rmtreeBackup c rfl)
        simp only [SwapState.perform, hindex, hskip, Bool.false_eq_true, if_false, if_true]
      | false =>
        refine CanEnd.next hop (u := s.goOn (.healthCheck c.testSet)) ?_ ?_
        · simp only [SwapState.perform, hindex, hskip, Bool.false_eq_true, if_false]
        · simp only [Bool.false_eq_true, if_false]
          cases c.raises .healthCheck with
          | some e => exact canEnd_fail (s := s.goOn (.healthCheck c.testSet)) rfl (by simp) e
          | none => exact canEnd_healthCheck c rfl

/-- **A call is a run of its operations**, on files that can be read: the run ends with the same directories, the same
manager and the same result. -/
theorem exists_run_safeSwap (retriever : FAISSRetriever V S) (baseDir : Text) (c : SwapCall) (hidle : s.op = none) :
    ∃ ls t, (swapSystem retriever baseDir).run s (.callSafeSwap c.skipHealthCheck c.testSet :: ls) = some t ∧
      t.dirs = (safeSwap (builtReader V) retriever baseDir c s.dirs).2 ∧ t.op = none ∧
      t.outcome = some (swapOutcome (safeSwap (builtReader V) retriever baseDir c s.dirs).1) := by
  let called : SwapState V := { s with op := some (.findStaging c.skipHealthCheck c.testSet), outcome := none }
  have hcall : (swapSystem retriever baseDir).step s (.callSafeSwap c.skipHealthCheck c.testSet) = some called := by
    show (if s.op.isSome then none else some called) = some called
    rw [hidle]
    rfl
  have hend : CanEnd retriever baseDir called (safeSwap (builtReader V) retriever baseDir c called.dirs) :=
    canEnd_findStaging c rfl
  obtain ⟨ls, t, hrun, ht⟩ := hend
  exact ⟨ls, t, System.run_cons_eq_some.mpr ⟨called, hcall, hrun⟩, ht⟩

end

namespace RetrievalSample

/-- Index files with a number as content; an odd index file cannot be read. -/
def reader : IndexReader Nat Nat Unit where
  readIndex n := if n % 2 = 0 then .ok [] else raise .runtimeError "Index type not recognized".toList
  readJson _ := .ok []

/-- An active index, and a new one that cannot be read. -/
def damaged : SwapDirs Nat Nat Unit := ⟨some ⟨some 1, some 0⟩, some ⟨some 0, some 0⟩, none, .empty Unit⟩

/-- A call without the health check, in which nothing raises by itself. -/
def unchecked : SwapCall := ⟨true, none, fun _ => none, false, false⟩

end RetrievalSample

/-- The live index is another one after the load has raised. -/
theorem not_leavesLive :
    ¬ ∀ (reader : IndexReader Nat Nat Unit) (retriever : FAISSRetriever Unit Nat) (baseDir : Text) (c : SwapCall)
      (s : SwapDirs Nat Nat Unit), LeavesLive s (safeSwap reader retriever baseDir c s) := by
  intro h
  have hlive := leavesLive_iff.mp (h RetrievalSample.reader RetrievalSample.retriever [] RetrievalSample.unchecked
    RetrievalSample.damaged)
  obtain ⟨-, hloses⟩ := hlive ⟨rfl, rfl, rfl⟩
  obtain ⟨-, hload⟩ | hsame := hloses rfl
  · obtain ⟨index, idMap, newIndex, raw, newIdMap, hfiles, hread, -⟩ := hload
    cases hfiles
    cases hread
  · cases hsame

end ComplianceLoop
