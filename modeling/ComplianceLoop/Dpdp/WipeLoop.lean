import ComplianceLoop.Dpdp.WipeStatements

/-!
# The loop of the nightly wipe ends

The loop of `_run_retention_wipe_async` among other transactions: they lock rows, which a batch then skips, and write
between two batches; a wipe may raise at any of its statements and a commit may fail. A wipe is only counted once its
row is marked, and the batch that counts it has committed. So each round but the last takes a row out of the expired
ones for good, and the loop makes at most one call more than there are expired rows (`wipeLoop_ends`).
-/

set_option autoImplicit false

namespace ComplianceLoop

open PyLib Transition

/-- The task, and what it meets in its batches. -/
structure WipeLoop where
  task : WipeTask
  /-- The rows that others have locked. -/
  locked : Nat → Uuid → Bool
  faults : Nat → WipeFaults
  /-- Whether the query or the commit raises. -/
  sessionRaises : Nat → Bool

/-- How the loop ends. -/
structure WipeLoopEnd where
  calls : Nat
  wiped : Nat
  errors : Nat
  /-- Whether a batch raised, which the loop passes on. -/
  raised : Bool

namespace WipeLoop

variable (w : WipeLoop)

/-- The rows that the `k`-th batch takes, `SKIP LOCKED`. -/
def selected (k : Nat) (db : RetentionDb) : List Application :=
  (w.task.order k (db.applications.filter fun a => a.due (w.task.clock k) && !w.locked k a.id)).take w.task.batchSize

/-- `_wipe_batch`: `none` when it raises, and the session is rolled back. -/
def wipeBatch (k : Nat) (db : RetentionDb) : Option BatchState :=
  if w.sessionRaises k then none
  else if (w.selected k db).isEmpty then some ⟨db, 0, 0⟩
  else (w.selected k db).foldlM (w.task.wipeOneAt (w.faults k) (w.task.clock k)) ⟨db, 0, 0⟩

/-- The `while` loop from its `k`-th round on, where the `k`-th batch finds `tables k`. -/
def loop (tables : Nat → RetentionDb) : Nat → Nat → Nat → Nat → Option WipeLoopEnd
  | 0, _, _, _ => none
  | fuel + 1, k, wiped, errors =>
    match w.wipeBatch k (tables k) with
    | none => some ⟨k + 1, wiped, errors, true⟩
    | some batch =>
      if batch.wiped = 0 then some ⟨k + 1, wiped, errors + batch.errors, false⟩
      else loop tables fuel (k + 1) (wiped + batch.wiped) (errors + batch.errors)

/-- The rows that are expired when the `k`-th batch starts. -/
def eligible (k : Nat) (db : RetentionDb) : List Application := db.applications.filter (·.due (w.task.clock k))

/-- No application becomes eligible: those that the next batch finds expired were so behind the last one. -/
def NoneNewlyEligible (tables : Nat → RetentionDb) : Prop :=
  ∀ k batch, w.wipeBatch k (tables k) = some batch → batch.wiped ≠ 0 →
    ∀ a ∈ w.eligible (k + 1) (tables (k + 1)), ∃ b ∈ w.eligible k batch.db, b.id = a.id

/-! ## One batch -/

/-- A wipe that is counted has marked its row. -/
theorem progress_counted (task : WipeTask) (faults : WipeFaults) (now : DateTime) {a : Application}
    (hw : a.retentionWiped = false) :
    (task.progress faults now a).wiped = 0 ∨
      (task.progress faults now a).wiped = 1 ∧ (task.progress faults now a).app = a.wipe now := by
  cases h : a.harmless (faults.statement a.id) with
  | true =>
    obtain ⟨p, hp, happ, -, hone⟩ | ⟨p, hp, -, -, hzero⟩ := wipeBody_of_harmless now task.taskRunId task.policyDays h
    · have hprogress : task.progress faults now a = p := congrArg stopped hp
      exact .inr (hprogress ▸ ⟨hone, happ⟩)
    · have hprogress : task.progress faults now a = p := congrArg stopped hp
      exact .inl (hprogress ▸ hzero)
  | false =>
    obtain ⟨p, hp, ⟨happ, -, hone⟩ | ⟨-, -, hzero⟩⟩ :=
      wipeBody_of_harmful now task.taskRunId task.policyDays hw h
    · have hprogress : task.progress faults now a = p := congrArg stopped hp
      exact .inr (hprogress ▸ ⟨hone, happ⟩)
    · have hprogress : task.progress faults now a = p := congrArg stopped hp
      exact .inl (hprogress ▸ hzero)

section

variable {w : WipeLoop} {k : Nat} {db : RetentionDb}

theorem mem_selected (ho : Orders w.task.order) {a : Application} (ha : a ∈ w.selected k db) :
    a ∈ w.eligible k db ∧ a.retentionWiped = false := by
  obtain ⟨hmem, hdue⟩ := List.mem_filter.mp (batch_subset ho ha)
  rw [Bool.and_eq_true] at hdue
  refine ⟨List.mem_filter.mpr ⟨hmem, hdue.1⟩, ?_⟩
  by_contra hw
  rw [Application.due_of_wiped (Bool.of_not_eq_false hw)] at hdue
  exact Bool.false_ne_true hdue.1

theorem selected_nodup (ho : Orders w.task.order) (hk : db.Keyed) : ((w.selected k db).map Application.id).Nodup := by
  have hsub : (w.selected k db).Sublist
      (w.task.order k (db.applications.filter fun a => a.due (w.task.clock k) && !w.locked k a.id)) :=
    List.take_sublist _ _
  refine (hsub.map Application.id).nodup ?_
  exact ((ho k _).map Application.id).nodup_iff.mpr ((List.filter_sublist.map Application.id).nodup hk)

/-- The rows of the batch whose wipe is counted. -/
def counted (w : WipeLoop) (k : Nat) (db : RetentionDb) : List Application :=
  (w.selected k db).filter fun a => (w.task.progress (w.faults k) (w.task.clock k) a).wiped = 1

/-- A batch that returns has gone through its rows. -/
theorem wipeBatch_foldlM {batch : BatchState} (h : w.wipeBatch k db = some batch) :
    (w.selected k db).foldlM (w.task.wipeOneAt (w.faults k) (w.task.clock k)) ⟨db, 0, 0⟩ = some batch := by
  unfold wipeBatch at h
  split at h
  · cases h
  · split at h
    · rename_i hempty
      rw [List.isEmpty_iff.mp hempty]
      exact h
    · exact h

/-- **A counted row was expired, and is not any more; every other expired row was expired before.** -/
theorem wipeBatch_eq_some (ho : Orders w.task.order) (hk : db.Keyed) {batch : BatchState}
    (h : w.wipeBatch k db = some batch) :
    batch.wiped = (w.counted k db).length ∧
      ∀ b ∈ w.eligible k batch.db, b.id ∈ (w.eligible k db).map Application.id ∧
        b.id ∉ (w.counted k db).map Application.id := by
  have hrows : ∀ a ∈ w.selected k db, db.rowsOf a.id = [a] := fun a ha =>
    hk.rowsOf_eq (List.mem_filter.mp (mem_selected ho ha).1).1
  obtain ⟨hwiped, -, hdone, hothers⟩ := WipeTask.foldlM_wipeOneAt (wipeBatch_foldlM h) (selected_nodup ho hk) hrows
  have hcases := fun (a : Application) (ha : a ∈ w.selected k db) =>
    progress_counted w.task (w.faults k) (w.task.clock k) (mem_selected ho ha).2
  constructor
  · rw [hwiped, Nat.zero_add, counted, ← List.countP_eq_length_filter]
    refine WipeTask.sum_eq_countP fun a ha => ?_
    rcases hcases a ha with hzero | ⟨hone, -⟩
    · rw [hzero]
      rfl
    · rw [hone]
      rfl
  · intro b hb
    obtain ⟨hmem, hdue⟩ := List.mem_filter.mp hb
    have hrow : b ∈ batch.db.rowsOf b.id := List.mem_filter.mpr ⟨hmem, decide_eq_true rfl⟩
    by_cases hid : b.id ∈ (w.selected k db).map Application.id
    · obtain ⟨a, ha, he⟩ := List.mem_map.mp hid
      rw [← he, (hdone a ha).1, List.mem_singleton] at hrow
      refine ⟨he ▸ List.mem_map_of_mem (mem_selected ho ha).1, fun hcounted => ?_⟩
      -- the row of a counted wipe is marked, so it is not expired
      obtain ⟨c, hc, hce⟩ := List.mem_map.mp hcounted
      obtain ⟨hc, hone⟩ := List.mem_filter.mp hc
      obtain rfl : c = a := List.inj_on_of_nodup_map (selected_nodup ho hk) hc ha (hce.trans he.symm)
      rcases hcases c ha with hzero | ⟨-, happ⟩
      · rw [hzero] at hone
        cases hone
      · rw [hrow, happ, Application.due_of_wiped rfl] at hdue
        cases hdue
    · rw [(hothers b.id hid).1] at hrow
      refine ⟨List.mem_map_of_mem (List.mem_filter.mpr ⟨(List.mem_filter.mp hrow).1, hdue⟩), fun hcounted => hid ?_⟩
      exact (List.filter_sublist.map Application.id).subset hcounted

/-- **A batch that counts wipes leaves fewer expired rows for the next one.** -/
theorem eligible_decreases {tables : Nat → RetentionDb} (ho : Orders w.task.order) (hk : ∀ k, (tables k).Keyed)
    (hquiet : w.NoneNewlyEligible tables) {batch : BatchState} (h : w.wipeBatch k (tables k) = some batch)
    (hne : batch.wiped ≠ 0) :
    batch.wiped + (w.eligible (k + 1) (tables (k + 1))).length ≤ (w.eligible k (tables k)).length := by
  obtain ⟨hwiped, hleft⟩ := wipeBatch_eq_some ho (hk k) h
  have hsub : (w.counted k (tables k)).map Application.id ++
      (w.eligible (k + 1) (tables (k + 1))).map Application.id ⊆ (w.eligible k (tables k)).map Application.id := by
    intro id hid
    rcases List.mem_append.mp hid with hid | hid
    · obtain ⟨a, ha, rfl⟩ := List.mem_map.mp hid
      exact List.mem_map_of_mem (mem_selected ho (List.mem_filter.mp ha).1).1
    · obtain ⟨a, ha, rfl⟩ := List.mem_map.mp hid
      obtain ⟨b, hb, he⟩ := hquiet k batch h hne a ha
      exact he ▸ (hleft b hb).1
  have hnodup : ((w.counted k (tables k)).map Application.id ++
      (w.eligible (k + 1) (tables (k + 1))).map Application.id).Nodup := by
    refine List.Nodup.append ?_ ?_ fun id hid hid' => ?_
    · exact (List.filter_sublist.map Application.id).nodup (selected_nodup ho (hk k))
    · exact (List.filter_sublist.map Application.id).nodup (hk (k + 1))
    · obtain ⟨a, ha, rfl⟩ := List.mem_map.mp hid'
      obtain ⟨b, hb, he⟩ := hquiet k batch h hne a ha
      exact (hleft b hb).2 (he ▸ hid)
  have hle := (List.subperm_of_subset hnodup hsub).length_le
  rw [List.length_append, List.length_map, List.length_map, List.length_map] at hle
  omega

/-! ## The loop -/

/-- **With more calls than there are expired rows the loop ends.** -/
theorem loop_ends {tables : Nat → RetentionDb} (ho : Orders w.task.order) (hk : ∀ k, (tables k).Keyed)
    (hquiet : w.NoneNewlyEligible tables) {fuel k : Nat} (hfuel : (w.eligible k (tables k)).length < fuel)
    (wiped errors : Nat) : ∃ e, w.loop tables fuel k wiped errors = some e ∧ e.calls ≤ k + fuel := by
  induction fuel generalizing k wiped errors with
  | zero => exact absurd hfuel (Nat.not_lt_zero _)
  | succ fuel ih =>
    rw [loop]
    cases hb : w.wipeBatch k (tables k) with
    | none => exact ⟨_, rfl, by dsimp only; omega⟩
    | some batch =>
      by_cases hne : batch.wiped = 0
      · exact ⟨⟨k + 1, wiped, errors + batch.errors, false⟩, if_pos hne, by dsimp only; omega⟩
      · have hless := eligible_decreases ho hk hquiet hb hne
        obtain ⟨e, he, hcalls⟩ := ih (k := k + 1) (by omega) (wiped + batch.wiped) (errors + batch.errors)
        exact ⟨e, (if_neg hne).trans he, by omega⟩

end

/-- **The nightly loop makes at most one call more than there are expired applications.** -/
theorem wipeLoop_ends {w : WipeLoop} {tables : Nat → RetentionDb} (ho : Orders w.task.order)
    (hk : ∀ k, (tables k).Keyed) (hquiet : w.NoneNewlyEligible tables) :
    ∃ e, w.loop tables ((w.eligible 0 (tables 0)).length + 1) 0 0 0 = some e ∧
      e.calls ≤ (w.eligible 0 (tables 0)).length + 1 := by
  obtain ⟨e, he, hcalls⟩ := loop_ends ho hk hquiet (Nat.lt_succ_self (w.eligible 0 (tables 0)).length) 0 0
  exact ⟨e, he, by omega⟩

end WipeLoop

namespace WipeSample

/-- The wipe of the first application raises in `db.add`; nothing is locked. -/
def addRaisesLoop : WipeLoop := ⟨task [], fun _ _ => false, fun _ => addRaises, fun _ => false⟩

/-- Both rows are marked in the first batch. -/
def loopTables : Nat → RetentionDb
  | 0 => db
  | _ + 1 => ⟨wipeRows (midnight 1) [⟨1⟩, ⟨2⟩] db.applications, []⟩

theorem keyed_loopTables : ∀ k, (loopTables k).Keyed
  | 0 => keyed
  | _ + 1 => by
    show ((wipeRows _ _ db.applications).map Application.id).Nodup
    rw [map_id_wipeRows]
    exact keyed

theorem noneNewlyEligible : addRaisesLoop.NoneNewlyEligible loopTables := by
  intro k batch _ _ a ha
  obtain ⟨ha, hdue⟩ := List.mem_filter.mp ha
  have hmarked : ∀ a ∈ wipeRows (midnight 1) [⟨1⟩, ⟨2⟩] db.applications, a.retentionWiped = true := by decide
  rw [Application.due_of_wiped (hmarked a ha)] at hdue
  cases hdue

end WipeSample

/-- The loop over two expired applications. -/
theorem wipeLoop_ends_addRaises :
    ∃ e, WipeSample.addRaisesLoop.loop WipeSample.loopTables
          ((WipeSample.addRaisesLoop.eligible 0 (WipeSample.loopTables 0)).length + 1) 0 0 0 = some e ∧
      e.calls ≤ (WipeSample.addRaisesLoop.eligible 0 (WipeSample.loopTables 0)).length + 1 :=
  WipeLoop.wipeLoop_ends (fun _ _ => .refl _) WipeSample.keyed_loopTables WipeSample.noneNewlyEligible

end ComplianceLoop
