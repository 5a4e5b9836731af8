import ComplianceLoop.Dpdp.Application
import ComplianceLoop.PyLib.Strings
import ComplianceLoop.Transition.Sweep

/-!
# `dpdp/retention_enforcer.py`: the nightly wipe

`runRetentionWipe` repeats `wipeBatch` until a batch wipes nothing. The SELECT has no ORDER BY: the order in which a
batch sees the expired rows is a parameter, and so is the set of applications whose wipe raises. The loop is a sweep
over the expired rows (`runBatches_eq_sweep`); what it leaves and reports is exact in every order of the rows exactly
when none of them raises, or all of them do and fit into one batch (`retentionWipe_exact_iff`).
-/

set_option autoImplicit false

namespace ComplianceLoop

open PyLib Transition

/-- The WHERE clause of `_wipe_batch`. -/
def Application.due (now : DateTime) (a : Application) : Bool :=
  decide (a.dataRetentionExpiresAt.instant < now.instant) && !a.retentionWiped && !a.isDemo

/-- `int(os.environ.get("DPDP_DEFAULT_RETENTION_DAYS", "90"))`. -/
def defaultRetentionDays (environ : TextDict) : Except PyExc Int :=
  let text := environ.get "DPDP_DEFAULT_RETENTION_DAYS".toList "90".toList
  match intOfDecimal text with
  | some days => .ok days
  | none => raise .valueError ("invalid literal for int() with base 10: '".toList ++ text ++ "'".toList)

/-- The rows that the SELECT of `_wipe_batch` asks for. The number of days for the events is read before. -/
def wipeCandidates (environ : TextDict) (now : DateTime) (applications : List Application) :
    Except PyExc (List Application) :=
  (defaultRetentionDays environ).map fun _ => applications.filter (·.due now)

/-- What a run of the task depends on, in an environment with a number of days. Without one the first batch raises
before its SELECT (`wipeCandidates`). -/
structure WipeTask where
  startTime : DateTime
  environ : TextDict
  policyDays : Int
  readable : defaultRetentionDays environ = .ok policyDays
  batchSize : Nat
  /-- The applications whose wipe raises on its first statement. -/
  raises : Uuid → Bool
  /-- The order in which a batch sees the selected rows. -/
  order : Nat → List Application → List Application
  /-- The time of a batch. -/
  clock : Nat → DateTime

/-- What a batch has done so far. -/
structure BatchState where
  db : RetentionDb
  wiped : Nat
  errors : Nat

namespace WipeTask

variable (task : WipeTask)

/-- `task_run_id`. -/
def taskRunId : Text :=
  let ⟨date, time, _⟩ := task.startTime
  "retention-".toList ++ Nat.toDigits 10 date.year ++ pad 2 date.month ++ pad 2 date.day ++
    'T' :: (pad 2 time.hour ++ pad 2 time.minute ++ pad 2 time.second)

/-- Whether the wipe of the application raises. -/
def fails (app : Application) : Bool := task.raises app.id

/-- The body of the loop of `_wipe_batch`. -/
def wipeOne (now : DateTime) (s : BatchState) (app : Application) : BatchState :=
  if task.fails app then { s with errors := s.errors + 1 }
  else
    { s with
      db :=
        { applications := wipeRows now [app.id] s.db.applications
          events := s.db.events ++ [app.retentionEvent now task.taskRunId task.policyDays] }
      wiped := s.wiped + 1 }

/-- The rows that the `k`-th batch takes. -/
def selected (k : Nat) (db : RetentionDb) : List Application :=
  (task.order k (db.applications.filter (·.due (task.clock k)))).take task.batchSize

/-- They are the first of the candidates, in some order. -/
theorem selected_eq_take (k : Nat) (db : RetentionDb) : ∃ rows,
    wipeCandidates task.environ (task.clock k) db.applications = .ok rows ∧
      task.selected k db = (task.order k rows).take task.batchSize :=
  ⟨_, congrArg (Except.map _) task.readable, rfl⟩

/-- `_wipe_batch`: the number of wiped applications and of errors, and the tables afterwards. -/
def wipeBatch (k : Nat) (db : RetentionDb) : BatchState :=
  if (task.selected k db).isEmpty then ⟨db, 0, 0⟩
  else (task.selected k db).foldl (task.wipeOne (task.clock k)) ⟨db, 0, 0⟩

/-- The loop of `_run_retention_wipe_async`, from its `k`-th round on. -/
def runBatches : Nat → Nat → BatchState → Option BatchState
  | 0, _, _ => none
  | fuel + 1, k, s =>
    let batch := task.wipeBatch k s.db
    let s' : BatchState := ⟨batch.db, s.wiped + batch.wiped, s.errors + batch.errors⟩
    if batch.wiped = 0 then some s' else runBatches fuel (k + 1) s'

end WipeTask

/-- The dict that the task returns. -/
structure WipeStatistics where
  wipedCount : Nat
  errorCount : Nat
  durationSeconds : Int
  taskRunId : Text

/-- `_run_retention_wipe_async`. -/
def runRetentionWipe (task : WipeTask) (fuel : Nat) (finish : DateTime) (db : RetentionDb) :
    Option (WipeStatistics × RetentionDb) :=
  (task.runBatches fuel 0 ⟨db, 0, 0⟩).map fun s =>
    (⟨s.wiped, s.errors, (finish.instant - task.startTime.instant).tdiv 1000000, task.taskRunId⟩, s.db)

/-! ## One batch -/

namespace WipeTask

variable {task : WipeTask}

/-- The ids that are wiped among these rows. -/
def wipedIds (task : WipeTask) (apps : List Application) : List Uuid :=
  (apps.filter (!task.fails ·)).map Application.id

theorem foldl_wipeOne (now : DateTime) (apps : List Application) (s : BatchState) :
    apps.foldl (task.wipeOne now) s =
      { db :=
          { applications := wipeRows now (task.wipedIds apps) s.db.applications
            events := s.db.events ++
              (apps.filter (!task.fails ·)).map (·.retentionEvent now task.taskRunId task.policyDays) }
        wiped := s.wiped + apps.countP (!task.fails ·)
        errors := s.errors + apps.countP task.fails } := by
  induction apps generalizing s with
  | nil => simp [wipedIds]
  | cons a apps ih =>
    rw [List.foldl_cons, ih, wipeOne]
    cases h : task.fails a with
    | true => simp [wipedIds, h, Nat.add_assoc, Nat.add_comm]
    | false => simp [wipedIds, h, wipeRows_wipeRows, Nat.add_assoc, Nat.add_comm]

/-- What a batch does. -/
theorem wipeBatch_eq (k : Nat) (db : RetentionDb) :
    task.wipeBatch k db =
      { db :=
          { applications := wipeRows (task.clock k) (task.wipedIds (task.selected k db)) db.applications
            events := db.events ++ ((task.selected k db).filter (!task.fails ·)).map
              (·.retentionEvent (task.clock k) task.taskRunId task.policyDays) }
        wiped := (task.selected k db).countP (!task.fails ·)
        errors := (task.selected k db).countP task.fails } := by
  rw [wipeBatch]
  split
  · rename_i h
    rw [List.isEmpty_iff.mp h]
    simp [wipedIds]
  · rw [foldl_wipeOne, Nat.zero_add, Nat.zero_add]

end WipeTask

/-! ## The expired rows -/

/-- A wiped row is not selected. -/
theorem Application.due_of_wiped {now : DateTime} {a : Application} (h : a.retentionWiped = true) :
    a.due now = false := by
  simp [Application.due, h]

/-- No row expires while the task runs. -/
def Steady (clock : Nat → DateTime) (db : RetentionDb) : Prop :=
  ∀ a ∈ db.applications, ∀ k, a.due (clock k) = a.due (clock 0)

/-- The primary key of `applications`. -/
def RetentionDb.Keyed (db : RetentionDb) : Prop := (db.applications.map Application.id).Nodup

theorem RetentionDb.Keyed.ext {db : RetentionDb} (h : db.Keyed) {a b : Application} (ha : a ∈ db.applications)
    (hb : b ∈ db.applications) (he : a.id = b.id) : a = b :=
  List.inj_on_of_nodup_map h ha hb he

/-- The tables while the task runs: the same ids, every row as it was or wiped, and no new expired row. -/
structure Progress (now : DateTime) (db db' : RetentionDb) : Prop where
  ids : db'.applications.map Application.id = db.applications.map Application.id
  kept : ∀ a ∈ db.applications, a ∈ db'.applications ∨ db'.Wiped a.id
  due : ∀ a ∈ db'.applications, a.due now = true → a ∈ db.applications
  wiped : ∀ id, db.Wiped id → db'.Wiped id

theorem Progress.trans {now : DateTime} {a b c : RetentionDb} (h : Progress now a b) (h' : Progress now b c) :
    Progress now a c where
  ids := h'.ids.trans h.ids
  kept r hr := by
    rcases h.kept r hr with hb | hb
    · exact h'.kept r hb
    · exact .inr (h'.wiped _ hb)
  due r hr hd := h.due r (h'.due r hr hd) hd
  wiped id hw := h'.wiped id (h.wiped id hw)

/-- A wipe of some rows is progress. -/
theorem progress_wipeRows (now t : DateTime) (ids : List Uuid) (db : RetentionDb) (events : List RetentionEvent) :
    Progress now db ⟨wipeRows t ids db.applications, events⟩ where
  ids := map_id_wipeRows t ids db.applications
  kept a ha := by
    by_cases h : a.id ∈ ids
    · exact .inr ⟨a.wipe t, mem_wipeRows.mpr (.inr ⟨a, ha, h, rfl⟩), rfl, rfl⟩
    · exact .inl (mem_wipeRows.mpr (.inl ⟨ha, h⟩))
  due a ha hd := by
    rcases mem_wipeRows.mp ha with ⟨ha, -⟩ | ⟨r, -, -, rfl⟩
    · exact ha
    · rw [Application.due_of_wiped rfl] at hd
      cases hd
  wiped id := by
    rintro ⟨a, ha, rfl, hw⟩
    by_cases h : a.id ∈ ids
    · exact ⟨a.wipe t, mem_wipeRows.mpr (.inr ⟨a, ha, h, rfl⟩), rfl, rfl⟩
    · exact ⟨a, mem_wipeRows.mpr (.inl ⟨ha, h⟩), rfl, hw⟩

theorem Progress.keyed {now : DateTime} {db db' : RetentionDb} (h : Progress now db db') (hk : db.Keyed) :
    db'.Keyed := by
  rw [RetentionDb.Keyed, h.ids]
  exact hk

/-- Wiping rows makes none expire. -/
theorem Steady.wipeRows {clock : Nat → DateTime} {db : RetentionDb} (h : Steady clock db) (t : DateTime)
    (ids : List Uuid) (events : List RetentionEvent) : Steady clock ⟨wipeRows t ids db.applications, events⟩ := by
  intro a ha k
  rcases mem_wipeRows.mp ha with ⟨ha, -⟩ | ⟨r, -, -, rfl⟩
  · exact h a ha k
  · rw [Application.due_of_wiped rfl, Application.due_of_wiped rfl]

namespace WipeTask

variable {task : WipeTask}

/-- The expired rows of the table. -/
def pending (task : WipeTask) (db : RetentionDb) : List Application := db.applications.filter (·.due (task.clock 0))

theorem pending_nodup {db : RetentionDb} (h : db.Keyed) : (task.pending db).Nodup :=
  (List.Nodup.of_map _ h).filter _

theorem selected_eq {db : RetentionDb} (hs : Steady task.clock db) (k : Nat) :
    task.selected k db = (task.order k (task.pending db)).take task.batchSize := by
  have : db.applications.filter (·.due (task.clock k)) = task.pending db :=
    List.filter_congr fun a ha => by rw [hs a ha k]
  rw [selected, this]

/-- The rows that a batch leaves expired. -/
theorem pending_wipeRows {db : RetentionDb} (hk : db.Keyed) {batch : List Application}
    (hb : batch ⊆ task.pending db) (t : DateTime) (events : List RetentionEvent) :
    task.pending ⟨wipeRows t (task.wipedIds batch) db.applications, events⟩ =
      remaining task.fails batch (task.pending db) := by
  have hmem : ∀ r ∈ db.applications, r.id ∈ task.wipedIds batch ↔ r ∈ batch ∧ task.fails r = false := by
    intro r hr
    simp only [wipedIds, List.mem_map, List.mem_filter, Bool.not_eq_true']
    constructor
    · rintro ⟨a, ⟨ha, hf⟩, he⟩
      obtain rfl := hk.ext (List.mem_filter.mp (hb ha)).1 hr he
      exact ⟨ha, hf⟩
    · rintro ⟨hr', hf⟩
      exact ⟨r, ⟨hr', hf⟩, rfl⟩
  rw [pending, wipeRows, List.filter_map, remaining, pending, List.filter_filter]
  have hid : ∀ r ∈ db.applications.filter
        ((·.due (task.clock 0)) ∘ fun r => if (task.wipedIds batch).contains r.id then r.wipe t else r),
      (if (task.wipedIds batch).contains r.id then r.wipe t else r) = r := by
    intro r hr
    split
    · rename_i h
      have hd := (List.mem_filter.mp hr).2
      simp only [Function.comp_apply, if_pos h, Application.due_of_wiped (Application.retentionWiped_wipe t r)] at hd
      cases hd
    · rfl
  rw [List.map_congr_left hid, List.map_id']
  refine List.filter_congr fun r hr => ?_
  by_cases h : r.id ∈ task.wipedIds batch
  · obtain ⟨hb', hf⟩ := (hmem r hr).mp h
    simp [h, hb', hf, Application.due_of_wiped (Application.retentionWiped_wipe t r)]
  · have hn : r ∉ batch ∨ task.fails r = true := by
      by_contra hc
      rw [not_or, not_not, Bool.not_eq_true] at hc
      exact h ((hmem r hr).mpr hc)
    rcases hn with hn | hn <;> simp [h, hn]

/-! ## The run -/

/-- A batch is a round of the sweep over the expired rows. -/
theorem pending_wipeBatch (ho : Orders task.order) {db : RetentionDb} (hk : db.Keyed) (hs : Steady task.clock db)
    (k : Nat) :
    task.pending (task.wipeBatch k db).db = remaining task.fails (task.selected k db) (task.pending db) := by
  rw [wipeBatch_eq]
  refine pending_wipeRows hk ?_ _ _
  rw [selected_eq hs]
  exact batch_subset ho

theorem progress_wipeBatch (k : Nat) (db : RetentionDb) :
    Progress (task.clock 0) db (task.wipeBatch k db).db := by
  rw [wipeBatch_eq]
  exact progress_wipeRows _ _ _ _ _

theorem steady_wipeBatch {db : RetentionDb} (hs : Steady task.clock db) (k : Nat) :
    Steady task.clock (task.wipeBatch k db).db := by
  rw [wipeBatch_eq]
  exact hs.wipeRows _ _ _

/-- **The loop is a sweep over the expired rows.** -/
theorem runBatches_eq_sweep (ho : Orders task.order) {fuel k : Nat} {s : BatchState} (hk : s.db.Keyed)
    (hs : Steady task.clock s.db) :
    (task.runBatches fuel k s).map (fun r => (r.wiped, r.errors, task.pending r.db)) =
      (sweep task.fails task.order task.batchSize fuel k (task.pending s.db)).map
        fun r => (s.wiped + r.1, s.errors + r.2.1, r.2.2) := by
  induction fuel generalizing k s with
  | zero => rfl
  | succ fuel ih =>
    have hp := pending_wipeBatch ho hk hs k
    have hw : (task.wipeBatch k s.db).wiped = (task.selected k s.db).countP (!task.fails ·) := by rw [wipeBatch_eq]
    have he : (task.wipeBatch k s.db).errors = (task.selected k s.db).countP task.fails := by rw [wipeBatch_eq]
    rw [runBatches, sweep, ← selected_eq hs, hw, he]
    split
    · rename_i h0
      rw [h0, ← hp]
      rfl
    · refine (ih ?_ ?_).trans ?_
      · exact (progress_wipeBatch k s.db).keyed hk
      · exact steady_wipeBatch hs k
      · show Option.map _ (sweep _ _ _ _ _ (task.pending (task.wipeBatch k s.db).db)) = _
        rw [hp, Option.map_map]
        refine Option.map_congr fun r _ => ?_
        simp only [Function.comp_apply, Nat.add_assoc]

/-- A run makes progress only. -/
theorem progress_runBatches {fuel k : Nat} {s r : BatchState} (h : task.runBatches fuel k s = some r) :
    Progress (task.clock 0) s.db r.db := by
  induction fuel generalizing k s with
  | zero => cases h
  | succ fuel ih =>
    rw [runBatches] at h
    split at h
    · obtain rfl := Option.some.inj h
      exact progress_wipeBatch k s.db
    · have hrest := ih h
      exact (progress_wipeBatch k s.db).trans hrest

end WipeTask

/-! ## Exact runs -/

/-- The run has wiped every expired application whose wipe does not raise, and its counts are the numbers of those and
of the others. -/
structure ExactWipe (task : WipeTask) (db : RetentionDb) (r : WipeStatistics × RetentionDb) : Prop where
  wiped : ∀ a ∈ task.pending db, task.raises a.id = false → r.2.Wiped a.id
  wipedCount : r.1.wipedCount = (task.pending db).countP (!task.fails ·)
  errorCount : r.1.errorCount = (task.pending db).countP task.fails

/-- A run is exact when its sweep is. -/
theorem exactWipe_iff {task : WipeTask} {db : RetentionDb} (hk : db.Keyed) {r : BatchState}
    (hp : Progress (task.clock 0) db r.db) (seconds : Int) (taskRunId : Text) :
    ExactWipe task db (⟨r.wiped, r.errors, seconds, taskRunId⟩, r.db) ↔
      Exact task.fails (task.pending db) (r.wiped, r.errors, task.pending r.db) := by
  constructor
  · rintro ⟨hw, hc, he⟩
    refine ⟨hc, he, fun a ha => ?_⟩
    by_contra hf
    obtain ⟨ha', hd⟩ := List.mem_filter.mp ha
    obtain ⟨b, hb, hid, hbw⟩ := hw a (List.mem_filter.mpr ⟨hp.due a ha' hd, hd⟩) (Bool.eq_false_iff.mpr hf)
    obtain rfl := (hp.keyed hk).ext hb ha' hid
    rw [Application.due_of_wiped hbw] at hd
    cases hd
  · rintro ⟨hc, he, hrest⟩
    refine ⟨fun a ha hf => ?_, hc, he⟩
    obtain ⟨ha, hd⟩ := List.mem_filter.mp ha
    refine (hp.kept a ha).resolve_left fun ha' => ?_
    have hfa : task.raises a.id = true := hrest a (List.mem_filter.mpr ⟨ha', hd⟩)
    rw [hf] at hfa
    cases hfa

/-- A run of the task is exact when the sweep over the expired rows is. -/
theorem runRetentionWipe_exact_iff {task : WipeTask} (ho : Orders task.order) {db : RetentionDb} (hk : db.Keyed)
    (hs : Steady task.clock db) (fuel : Nat) (finish : DateTime) :
    (∃ r, runRetentionWipe task fuel finish db = some r ∧ ExactWipe task db r) ↔
      ∃ r, sweep task.fails task.order task.batchSize fuel 0 (task.pending db) = some r ∧
        Exact task.fails (task.pending db) r := by
  have hsw : (task.runBatches fuel 0 ⟨db, 0, 0⟩).map (fun r => (r.wiped, r.errors, task.pending r.db)) =
      (sweep task.fails task.order task.batchSize fuel 0 (task.pending db)).map
        fun r => (0 + r.1, 0 + r.2.1, r.2.2) := WipeTask.runBatches_eq_sweep (s := ⟨db, 0, 0⟩) ho hk hs
  simp only [Nat.zero_add] at hsw
  constructor
  · rintro ⟨r, hr, he⟩
    obtain ⟨s, hrun, rfl⟩ := Option.map_eq_some_iff.mp hr
    rw [hrun] at hsw
    obtain ⟨r', hr', heq⟩ := Option.map_eq_some_iff.mp hsw.symm
    refine ⟨r', hr', ?_⟩
    have heq' : r' = (s.wiped, s.errors, task.pending s.db) := heq
    rw [heq']
    exact (exactWipe_iff hk (WipeTask.progress_runBatches hrun) _ _).mp he
  · rintro ⟨r', hr', he⟩
    rw [hr'] at hsw
    obtain ⟨s, hrun, heq⟩ := Option.map_eq_some_iff.mp hsw
    refine ⟨_, Option.map_eq_some_iff.mpr ⟨s, hrun, rfl⟩, ?_⟩
    have heq' : (s.wiped, s.errors, task.pending s.db) = r' := heq
    refine (exactWipe_iff hk (WipeTask.progress_runBatches hrun) _ _).mpr ?_
    rw [heq']
    exact he

/-- **A run of the nightly wipe ends, is complete and counts exactly, in whatever order the rows are selected, if and
only if no expired application raises, or all of them do and fit into one batch.** -/
theorem retentionWipe_exact_iff (task : WipeTask) {db : RetentionDb} (hk : db.Keyed) (hs : Steady task.clock db)
    {fuel : Nat} (hf : (task.pending db).length < fuel) (finish : DateTime) :
    (∀ order, Orders order → ∃ r, runRetentionWipe { task with order := order } fuel finish db = some r ∧
        ExactWipe { task with order := order } db r) ↔
      ((∀ a ∈ task.pending db, task.raises a.id = false) ∧ (task.pending db = [] ∨ 0 < task.batchSize)) ∨
        ((∀ a ∈ task.pending db, task.raises a.id = true) ∧ (task.pending db).length ≤ task.batchSize) := by
  have hcount : (task.pending db).countP (!task.fails ·) < fuel := Nat.lt_of_le_of_lt List.countP_le_length hf
  show _ ↔ ((∀ a ∈ task.pending db, task.fails a = false) ∧ _) ∨ ((∀ a ∈ task.pending db, task.fails a = true) ∧ _)
  rw [← sweep_exact_iff (k := 0) (WipeTask.pending_nodup hk) hcount]
  refine forall_congr' fun order => forall_congr' fun ho => ?_
  have hexact : Orders ({ task with order := order } : WipeTask).order := ho
  exact runRetentionWipe_exact_iff hexact hk hs fuel finish

namespace WipeSample

/-- 739768 is the ordinal of the first of June 2026. -/
theorem ordinal_june (day : Nat) : 1 ≤ 739768 + day % 30 ∧ 739768 + day % 30 ≤ maxOrdinal := by
  simp only [maxOrdinal]
  omega

/-- The first instant of a day of June 2026, UTC. -/
def midnight (day : Nat) : DateTime :=
  ⟨Date.ofOrdinal (739768 + day % 30) (ordinal_june day), Time.ofMicros 0 (by decide), some utcOffset⟩

/-- An application that expired on the first day. -/
def application (n : Fin (2 ^ 128)) : Application where
  id := ⟨n⟩
  applicantId := ⟨n⟩
  panHmac := []
  collateralValue := none
  cityTier := none
  dpdpConsentGiven := true
  payloadEncrypted := some [0]
  dataRetentionExpiresAt := midnight 0
  retentionWiped := false
  retentionWipedAt := none
  isDemo := false

/-- Two expired applications. -/
def db : RetentionDb := ⟨[application 1, application 2], []⟩

/-- The task on the next day, with batches of 500; the wipe of these applications raises. -/
def task (raising : List (Fin (2 ^ 128))) : WipeTask where
  startTime := midnight 1
  environ := .empty
  policyDays := 90
  readable := rfl
  batchSize := 500
  raises u := raising.contains u.int
  order _ rows := rows
  clock _ := midnight 1

theorem steady (raising : List (Fin (2 ^ 128))) : Steady (task raising).clock db := fun _ _ _ => rfl

theorem keyed : db.Keyed := by
  show (db.applications.map Application.id).Nodup
  decide

end WipeSample

/-- The run over two applications that can both be wiped. -/
theorem retentionWipe_exact_iff_noneRaises :
    (∀ order, Orders order →
        ∃ r, runRetentionWipe { WipeSample.task [] with order := order } 3 (WipeSample.midnight 1) WipeSample.db =
            some r ∧
          ExactWipe { WipeSample.task [] with order := order } WipeSample.db r) ↔
      ((∀ a ∈ (WipeSample.task []).pending WipeSample.db, (WipeSample.task []).raises a.id = false) ∧
          ((WipeSample.task []).pending WipeSample.db = [] ∨ 0 < (WipeSample.task []).batchSize)) ∨
        ((∀ a ∈ (WipeSample.task []).pending WipeSample.db, (WipeSample.task []).raises a.id = true) ∧
          ((WipeSample.task []).pending WipeSample.db).length ≤ (WipeSample.task []).batchSize) :=
  retentionWipe_exact_iff (WipeSample.task []) WipeSample.keyed (WipeSample.steady []) (by decide)
    (WipeSample.midnight 1)

/-- One of two applications raises: it is counted in the batch with the other one, and again in the last batch. -/
theorem retentionWipe_counts_twice :
    ¬ ∀ (task : WipeTask) (db : RetentionDb) (fuel : Nat) (finish : DateTime), db.Keyed → Steady task.clock db →
      Orders task.order → (task.pending db).length < fuel →
      ∃ r, runRetentionWipe task fuel finish db = some r ∧ ExactWipe task db r := by
  intro h
  obtain ⟨r, hr, he⟩ := h (WipeSample.task [1]) WipeSample.db 3 (WipeSample.midnight 1) WipeSample.keyed
    (WipeSample.steady [1]) (fun _ _ => .refl _) (by decide)
  have hrun : (runRetentionWipe (WipeSample.task [1]) 3 (WipeSample.midnight 1) WipeSample.db).map
      (fun r => r.1.errorCount) = some 2 := by decide
  have hone : ((WipeSample.task [1]).pending WipeSample.db).countP (WipeSample.task [1]).fails = 1 := by
    decide
  rw [hr] at hrun
  have := he.errorCount.symm.trans (Option.some.inj hrun)
  omega

end ComplianceLoop
