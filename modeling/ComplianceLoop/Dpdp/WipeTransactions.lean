import ComplianceLoop.Dpdp.DataSubjectHandler
import ComplianceLoop.Dpdp.RetentionEnforcer
import ComplianceLoop.Transition.Locks
import ComplianceLoop.Transition.Runs

/-!
# Wipes as concurrent transactions

Batches of the nightly task and erasure requests as transactions at READ COMMITTED. A batch locks the rows it selects
and skips locked ones; an erasure request reads without a lock, and its UPDATEs wait for the row locks; a commit makes
the writes visible at once (`wipeBatch_db` and `handleErasureRequest_db` tie it to the code).

While a batch holds its rows nobody wipes them (`WipeInv`). An erasure request decides by the flag it has read, so every
wiped application keeps exactly one event exactly when no erasure request commits a wipe of an application that has
been wiped since (`oneEventPerWipe_iff`).
-/

set_option autoImplicit false

namespace ComplianceLoop

open PyLib Transition

/-- A transaction that wipes: the rows that it wipes, as it has read them, and the fields of its events. -/
structure WipeTxn where
  forUpdate : Bool
  now : DateTime
  taskRunId : Text
  policyDays : Int
  writes : List Application

namespace WipeTxn

/-- The ids of the rows that it wipes. -/
def wipedIds (tx : WipeTxn) : List Uuid := tx.writes.map Application.id

/-- The tables after its commit. -/
def apply (tx : WipeTxn) (db : RetentionDb) : RetentionDb where
  applications := wipeRows tx.now tx.wipedIds db.applications
  events := db.events ++ tx.writes.map (·.retentionEvent tx.now tx.taskRunId tx.policyDays)

/-- The transaction of a batch that has got these rows. -/
def ofBatch (task : WipeTask) (k : Nat) (rows : List Application) : WipeTxn where
  forUpdate := true
  now := task.clock k
  taskRunId := task.taskRunId
  policyDays := task.policyDays
  writes := rows.filter (!task.fails ·)

/-- The transaction of an erasure request that has read these rows. -/
def ofErasure (req : ErasureRequest) (rows : List Application) : WipeTxn where
  forUpdate := false
  now := req.now
  taskRunId := req.wipeTaskRunId
  policyDays := 0
  writes := rows.filter (!·.retentionWiped)

end WipeTxn

/-- The committed tables, the open transactions and the row locks of `applications`. -/
structure WipeState where
  db : RetentionDb
  txns : Nat → Option WipeTxn
  locks : LockTable Uuid

/-- The statements of the transactions. -/
inductive WipeLabel where
  /-- `SELECT ... LIMIT batch_size FOR UPDATE SKIP LOCKED` of a batch, with the rows that it gets. -/
  | selectForUpdate (t : Nat) (task : WipeTask) (k : Nat) (rows : List Application)
  /-- The plain SELECT of an erasure request. -/
  | select (t : Nat) (req : ErasureRequest)
  /-- The UPDATE of a row, which waits for its lock. -/
  | update (t : Nat) (id : Uuid)
  | commit (t : Nat)
  | rollback (t : Nat)

namespace WipeState

/-- The rows that a batch can get. -/
def candidates (s : WipeState) (now : DateTime) : List Application :=
  s.db.applications.filter fun a => a.due now && s.locks.isFree a.id

/-- The state after a transaction has begun. -/
def start (s : WipeState) (t : Nat) (tx : WipeTxn) : WipeState := { s with txns := Function.update s.txns t (some tx) }

/-- The state after a transaction has ended. -/
def finish (s : WipeState) (t : Nat) (db : RetentionDb) : WipeState where
  db := db
  txns := Function.update s.txns t none
  locks := s.locks.release t

/-- One statement; `none` where it is not possible or has to wait. -/
def step (s : WipeState) : WipeLabel → Option WipeState
  | .selectForUpdate t task k rows =>
    if s.txns t = none ∧ rows.Nodup ∧ (∀ a ∈ rows, a ∈ s.candidates (task.clock k)) ∧
        rows.length = min task.batchSize (s.candidates (task.clock k)).length then
      (LockTable.acquireAll t (rows.map Application.id) s.locks).map fun locks =>
        { s.start t (.ofBatch task k rows) with locks := locks }
    else none
  | .select t req =>
    (Uuid.parse req.applicantId).bind fun applicantId =>
      let rows := s.db.applications.filter (req.selects applicantId)
      if s.txns t = none ∧ rows ≠ [] then some (s.start t (.ofErasure req rows)) else none
  | .update t id =>
    (s.txns t).bind fun tx =>
      if id ∈ tx.wipedIds then (s.locks.acquire id t).map fun locks => { s with locks := locks } else none
  | .commit t =>
    (s.txns t).bind fun tx =>
      if ∀ id ∈ tx.wipedIds, s.locks.Holds id t then some (s.finish t (tx.apply s.db)) else none
  | .rollback t => (s.txns t).map fun _ => s.finish t s.db

end WipeState

/-- The transactions as a system. -/
def wipeSystem : System WipeState WipeLabel := ⟨WipeState.step⟩

/-- Only a commit changes the tables. -/
theorem wipeStep_db {s s' : WipeState} {l : WipeLabel} (h : wipeSystem.step s l = some s') :
    (∃ t tx, l = .commit t ∧ s.txns t = some tx ∧ s'.db = tx.apply s.db) ∨ (∀ t, l ≠ .commit t) ∧ s'.db = s.db := by
  have h : s.step l = some s' := h
  cases l with
  | selectForUpdate t task k rows =>
    rw [WipeState.step] at h
    split at h
    · obtain ⟨locks, -, rfl⟩ := Option.map_eq_some_iff.mp h
      exact .inr ⟨fun t => WipeLabel.noConfusion, rfl⟩
    · cases h
  | select t req =>
    obtain ⟨u, -, h⟩ := Option.bind_eq_some_iff.mp h
    dsimp only at h
    split at h
    · obtain rfl := Option.some.inj h
      exact .inr ⟨fun t => WipeLabel.noConfusion, rfl⟩
    · cases h
  | update t id =>
    obtain ⟨tx, -, h⟩ := Option.bind_eq_some_iff.mp h
    split at h
    · obtain ⟨locks, -, rfl⟩ := Option.map_eq_some_iff.mp h
      exact .inr ⟨fun t => WipeLabel.noConfusion, rfl⟩
    · cases h
  | commit t =>
    obtain ⟨tx, htx, h⟩ := Option.bind_eq_some_iff.mp h
    split at h
    · obtain rfl := Option.some.inj h
      exact .inl ⟨t, tx, rfl, htx, rfl⟩
    · cases h
  | rollback t =>
    obtain ⟨tx, -, rfl⟩ := Option.map_eq_some_iff.mp h
    exact .inr ⟨fun t => WipeLabel.noConfusion, rfl⟩

/-! ## The commit and the code -/

/-- **A batch does what its transaction commits.** -/
theorem wipeBatch_db (task : WipeTask) (k : Nat) (db : RetentionDb) :
    (task.wipeBatch k db).db = (WipeTxn.ofBatch task k (task.selected k db)).apply db := by
  rw [WipeTask.wipeBatch_eq]
  rfl

/-- **An erasure request does what its transaction commits**, if the rows are still as it has read them. -/
theorem handleErasureRequest_db {req : ErasureRequest} {applicantId : Uuid}
    (hu : Uuid.parse req.applicantId = some applicantId) (db : RetentionDb) :
    (handleErasureRequest req db).2 =
      (WipeTxn.ofErasure req (db.applications.filter (req.selects applicantId))).apply db :=
  handleErasureRequest_snd hu db

/-! ## What a commit does to a row -/

/-- The number of events of an application. -/
def RetentionDb.eventCount (db : RetentionDb) (id : Uuid) : Nat := db.events.countP (·.applicationId = id)

/-- A commit adds one event for each row that it wipes. -/
theorem WipeTxn.eventCount_apply {tx : WipeTxn} (h : tx.wipedIds.Nodup) (db : RetentionDb) (id : Uuid) :
    (tx.apply db).eventCount id = db.eventCount id + if id ∈ tx.wipedIds then 1 else 0 := by
  have hcount : (tx.writes.map (·.retentionEvent tx.now tx.taskRunId tx.policyDays)).countP (·.applicationId = id) =
      tx.wipedIds.count id := by
    rw [WipeTxn.wipedIds, List.count_eq_countP, List.countP_map, List.countP_map]
    rfl
  rw [RetentionDb.eventCount, WipeTxn.apply, List.countP_append, hcount, RetentionDb.eventCount]
  split
  · rename_i hm
    rw [List.count_eq_one_of_mem h hm]
  · rename_i hm
    rw [List.count_eq_zero_of_not_mem hm]

/-! ## The invariant -/

/-- What holds between the statements: the events of rows that are not wiped, the rows that an open transaction wipes,
and the locks of a batch. -/
structure WipeInv (s : WipeState) : Prop where
  keyed : s.db.Keyed
  unwiped : ∀ a ∈ s.db.applications, a.retentionWiped = false → s.db.eventCount a.id = 0
  nodup : ∀ t tx, s.txns t = some tx → tx.wipedIds.Nodup
  found : ∀ t tx, s.txns t = some tx → ∀ id ∈ tx.wipedIds, id ∈ s.db.applications.map Application.id
  locked : ∀ t tx, s.txns t = some tx → tx.forUpdate = true →
    ∀ id ∈ tx.wipedIds, ¬ s.db.Wiped id ∧ s.locks.Holds id t

/-- Every wiped application has exactly one event. -/
def OneEventPerWipe (s : WipeState) : Prop :=
  ∀ a ∈ s.db.applications, a.retentionWiped = true → s.db.eventCount a.id = 1

/-- An erasure request that commits finds the rows that it wipes not wiped. -/
def StillUnwiped (s : WipeState) : WipeLabel → Prop
  | .commit t => ∀ tx, s.txns t = some tx → tx.forUpdate = false → ∀ id ∈ tx.wipedIds, ¬ s.db.Wiped id
  | _ => True

/-! ## Every statement keeps the invariant -/

theorem txns_start {s : WipeState} {t t' : Nat} {tx tx' : WipeTxn} (h : (s.start t tx).txns t' = some tx') :
    (t' = t ∧ tx' = tx) ∨ (t' ≠ t ∧ s.txns t' = some tx') := by
  by_cases ht : t' = t
  · subst ht
    exact .inl ⟨rfl, Option.some.inj (h.symm.trans (Function.update_self t' _ s.txns))⟩
  · exact .inr ⟨ht, (Function.update_of_ne ht _ s.txns).symm.trans h⟩

theorem txns_finish {s : WipeState} {t t' : Nat} {db : RetentionDb} {tx : WipeTxn}
    (h : (s.finish t db).txns t' = some tx) : t' ≠ t ∧ s.txns t' = some tx := by
  by_cases ht : t' = t
  · subst ht
    have h : Function.update s.txns t' none t' = some tx := h
    rw [Function.update_self] at h
    cases h
  · exact ⟨ht, (Function.update_of_ne ht _ s.txns).symm.trans h⟩

/-- The ids of rows of the table are distinct. -/
theorem RetentionDb.Keyed.nodup_ids {db : RetentionDb} (h : db.Keyed) {rows : List Application} (hn : rows.Nodup)
    (hs : rows ⊆ db.applications) : (rows.map Application.id).Nodup :=
  hn.map_on fun _ ha _ hb he => h.ext (hs ha) (hs hb) he

/-- A row of the table that is not wiped. -/
theorem RetentionDb.Keyed.not_wiped {db : RetentionDb} (h : db.Keyed) {a : Application} (ha : a ∈ db.applications)
    (hw : a.retentionWiped = false) : ¬ db.Wiped a.id := by
  rintro ⟨b, hb, hid, hbw⟩
  obtain rfl := h.ext hb ha hid
  rw [hw] at hbw
  cases hbw

/-- The applications that a commit leaves wiped. -/
theorem wiped_apply_iff {tx : WipeTxn} {db : RetentionDb} {u : Uuid} :
    (tx.apply db).Wiped u ↔ db.Wiped u ∨ ∃ a ∈ db.applications, a.id = u ∧ u ∈ tx.wipedIds := by
  constructor
  · rintro ⟨a, ha, rfl, hw⟩
    rcases mem_wipeRows.mp ha with ⟨ha, -⟩ | ⟨r, hr, hid, rfl⟩
    · exact .inl ⟨a, ha, rfl, hw⟩
    · exact .inr ⟨r, hr, rfl, hid⟩
  · rintro (⟨a, ha, rfl, hw⟩ | ⟨a, ha, rfl, hid⟩)
    · by_cases hid : a.id ∈ tx.wipedIds
      · exact ⟨a.wipe tx.now, mem_wipeRows.mpr (.inr ⟨a, ha, hid, rfl⟩), rfl, rfl⟩
      · exact ⟨a, mem_wipeRows.mpr (.inl ⟨ha, hid⟩), rfl, hw⟩
    · exact ⟨a.wipe tx.now, mem_wipeRows.mpr (.inr ⟨a, ha, hid, rfl⟩), rfl, rfl⟩

namespace WipeInv

variable {s s' : WipeState} (hi : WipeInv s)
include hi

theorem selectForUpdate {t : Nat} {task : WipeTask} {k : Nat} {rows : List Application}
    (h : s.step (.selectForUpdate t task k rows) = some s') : WipeInv s' := by
  rw [WipeState.step] at h
  split at h
  · rename_i hg
    obtain ⟨-, hn, hc, -⟩ := hg
    obtain ⟨locks, hl, rfl⟩ := Option.map_eq_some_iff.mp h
    have hrow : ∀ id ∈ (WipeTxn.ofBatch task k rows).wipedIds,
        ∃ a ∈ rows, a.id = id ∧ a ∈ s.db.applications ∧ a.retentionWiped = false := by
      intro id hid
      obtain ⟨a, ha, rfl⟩ := List.mem_map.mp hid
      obtain ⟨hdb, hd⟩ := List.mem_filter.mp (hc a (List.mem_filter.mp ha).1)
      refine ⟨a, (List.mem_filter.mp ha).1, rfl, hdb, ?_⟩
      by_contra hw
      rw [Application.due_of_wiped (Bool.not_eq_false _ ▸ hw)] at hd
      cases hd
    refine ⟨hi.keyed, hi.unwiped, ?_, ?_, ?_⟩
    · intro t' tx' ht
      rcases txns_start ht with ⟨rfl, rfl⟩ | ⟨-, ht⟩
      · refine hi.keyed.nodup_ids (hn.filter _) fun a ha => ?_
        exact (List.mem_filter.mp (hc a (List.mem_filter.mp ha).1)).1
      · exact hi.nodup t' tx' ht
    · intro t' tx' ht
      rcases txns_start ht with ⟨rfl, rfl⟩ | ⟨-, ht⟩
      · intro id hid
        obtain ⟨a, -, rfl, ha, -⟩ := hrow id hid
        exact List.mem_map_of_mem ha
      · exact hi.found t' tx' ht
    · intro t' tx' ht hf id hid
      rcases txns_start ht with ⟨rfl, rfl⟩ | ⟨-, ht⟩
      · obtain ⟨a, ha, rfl, hdb, hw⟩ := hrow id hid
        refine ⟨hi.keyed.not_wiped hdb hw, ?_⟩
        exact (LockTable.holds_acquireAll hl).mpr (.inr ⟨List.mem_map_of_mem ha, rfl⟩)
      · obtain ⟨hnw, hh⟩ := hi.locked t' tx' ht hf id hid
        exact ⟨hnw, (LockTable.holds_acquireAll hl).mpr (.inl hh)⟩
  · cases h

theorem select {t : Nat} {req : ErasureRequest} (h : s.step (.select t req) = some s') : WipeInv s' := by
  obtain ⟨u, -, h⟩ := Option.bind_eq_some_iff.mp h
  dsimp only at h
  split at h
  · obtain rfl := Option.some.inj h
    have hsub : (s.db.applications.filter (req.selects u)).filter (!·.retentionWiped) ⊆ s.db.applications :=
      fun a ha => (List.mem_filter.mp (List.mem_filter.mp ha).1).1
    refine ⟨hi.keyed, hi.unwiped, ?_, ?_, ?_⟩
    · intro t' tx' ht
      rcases txns_start ht with ⟨rfl, rfl⟩ | ⟨-, ht⟩
      · exact hi.keyed.nodup_ids (((List.Nodup.of_map _ hi.keyed).filter _).filter _) hsub
      · exact hi.nodup t' tx' ht
    · intro t' tx' ht
      rcases txns_start ht with ⟨rfl, rfl⟩ | ⟨-, ht⟩
      · intro id hid
        obtain ⟨a, ha, rfl⟩ := List.mem_map.mp hid
        exact List.mem_map_of_mem (hsub ha)
      · exact hi.found t' tx' ht
    · intro t' tx' ht hf
      rcases txns_start ht with ⟨rfl, rfl⟩ | ⟨-, ht⟩
      · cases hf
      · exact hi.locked t' tx' ht hf
  · cases h

theorem update {t : Nat} {id : Uuid} (h : s.step (.update t id) = some s') : WipeInv s' := by
  obtain ⟨tx, -, h⟩ := Option.bind_eq_some_iff.mp h
  split at h
  · obtain ⟨locks, hl, rfl⟩ := Option.map_eq_some_iff.mp h
    refine ⟨hi.keyed, hi.unwiped, hi.nodup, hi.found, fun t' tx' ht hf id' hid => ?_⟩
    obtain ⟨hnw, hh⟩ := hi.locked t' tx' ht hf id' hid
    exact ⟨hnw, (LockTable.holds_acquire hl).mpr (.inl hh)⟩
  · cases h

theorem rollback {t : Nat} (h : s.step (.rollback t) = some s') : WipeInv s' := by
  obtain ⟨tx, -, rfl⟩ := Option.map_eq_some_iff.mp h
  refine ⟨hi.keyed, hi.unwiped, ?_, ?_, ?_⟩
  · exact fun t' tx' ht => hi.nodup t' tx' (txns_finish ht).2
  · exact fun t' tx' ht => hi.found t' tx' (txns_finish ht).2
  · intro t' tx' ht hf id hid
    obtain ⟨hne, ht⟩ := txns_finish ht
    obtain ⟨hnw, hh⟩ := hi.locked t' tx' ht hf id hid
    exact ⟨hnw, LockTable.holds_release.mpr ⟨hh, hne⟩⟩

/-- A commit holds the locks of the rows that it wipes, so it wipes no row of another batch. -/
theorem commit {t : Nat} (h : s.step (.commit t) = some s') : WipeInv s' := by
  obtain ⟨tx, htx, h⟩ := Option.bind_eq_some_iff.mp h
  split at h
  · rename_i hg
    obtain rfl := Option.some.inj h
    refine ⟨?_, ?_, ?_, ?_, ?_⟩
    · show ((wipeRows tx.now tx.wipedIds s.db.applications).map Application.id).Nodup
      rw [map_id_wipeRows]
      exact hi.keyed
    · intro a ha hw
      rcases mem_wipeRows.mp ha with ⟨ha, hid⟩ | ⟨r, -, -, rfl⟩
      · show (tx.apply s.db).eventCount a.id = 0
        rw [tx.eventCount_apply (hi.nodup t tx htx), hi.unwiped a ha hw, if_neg hid]
      · cases hw
    · exact fun t' tx' ht => hi.nodup t' tx' (txns_finish ht).2
    · intro t' tx' ht id hid
      show id ∈ (wipeRows tx.now tx.wipedIds s.db.applications).map Application.id
      rw [map_id_wipeRows]
      exact hi.found t' tx' (txns_finish ht).2 id hid
    · intro t' tx' ht hf id hid
      obtain ⟨hne, ht⟩ := txns_finish ht
      obtain ⟨hnw, hh⟩ := hi.locked t' tx' ht hf id hid
      refine ⟨fun hw => ?_, LockTable.holds_release.mpr ⟨hh, hne⟩⟩
      rcases wiped_apply_iff.mp hw with hw | ⟨-, -, -, hw⟩
      · exact hnw hw
      · exact hne (hh.unique (hg id hw))
  · cases h

theorem step {l : WipeLabel} (h : wipeSystem.step s l = some s') : WipeInv s' := by
  cases l with
  | selectForUpdate t task k rows => exact hi.selectForUpdate h
  | select t req => exact hi.select h
  | update t id => exact hi.update h
  | commit t => exact hi.commit h
  | rollback t => exact hi.rollback h

end WipeInv

/-! ## Runs -/

/-- **One statement keeps exactly one event for each wiped application exactly when it is no commit of an erasure
request that comes too late.** -/
theorem oneEventPerWipe_step {s s' : WipeState} {l : WipeLabel} (hi : WipeInv s) (hp : OneEventPerWipe s)
    (h : wipeSystem.step s l = some s') : WipeInv s' ∧ (OneEventPerWipe s' ↔ StillUnwiped s l) := by
  refine ⟨hi.step h, ?_⟩
  rcases wipeStep_db h with ⟨t, tx, rfl, htx, hdb⟩ | ⟨hne, hdb⟩
  · have hcount := tx.eventCount_apply (hi.nodup t tx htx) s.db
    constructor
    · rintro hp' tx' htx' - id hid ⟨a, ha, rfl, hw⟩
      obtain rfl := Option.some.inj (htx.symm.trans htx')
      -- the application had its event already
      have hrow : a.wipe tx.now ∈ s'.db.applications := by
        rw [hdb]
        exact mem_wipeRows.mpr (.inr ⟨a, ha, hid, rfl⟩)
      have hone := hp' _ hrow rfl
      rw [hdb, Application.id_wipe, hcount, hp a ha hw, if_pos hid] at hone
      omega
    · intro hg a ha hw
      have hunwiped : ∀ id ∈ tx.wipedIds, ¬ s.db.Wiped id := by
        intro id hid
        cases hf : tx.forUpdate with
        | true => exact (hi.locked t tx htx hf id hid).1
        | false => exact hg tx htx hf id hid
      rw [hdb] at ha ⊢
      rw [hcount]
      rcases mem_wipeRows.mp ha with ⟨ha, hid⟩ | ⟨r, hr, hid, rfl⟩
      · rw [hp a ha hw, if_neg hid]
      · have hr0 : r.retentionWiped = false := by
          by_contra hrw
          exact hunwiped r.id hid ⟨r, hr, rfl, Bool.not_eq_false _ ▸ hrw⟩
        rw [Application.id_wipe, hi.unwiped r hr hr0, if_pos hid]
  · refine iff_of_true ?_ ?_
    · rw [OneEventPerWipe, hdb]
      exact hp
    · cases l with
      | commit t => exact absurd rfl (hne t)
      | selectForUpdate t task k rows | select t req | update t id | rollback t => trivial

/-- No transaction is open, and the events are those of the wiped applications. -/
structure WipeState.Quiet (s : WipeState) : Prop where
  txns : ∀ t, s.txns t = none
  keyed : s.db.Keyed
  events : ∀ a ∈ s.db.applications, s.db.eventCount a.id = if a.retentionWiped then 1 else 0

theorem WipeState.Quiet.inv {s : WipeState} (h : s.Quiet) : WipeInv s where
  keyed := h.keyed
  unwiped a ha hw := by rw [h.events a ha, hw]; rfl
  nodup t tx ht := by rw [h.txns t] at ht; cases ht
  found t tx ht := by rw [h.txns t] at ht; cases ht
  locked t tx ht := by rw [h.txns t] at ht; cases ht

/-- **In a run of batches and erasure requests every wiped application has exactly one event all the time if and only
if every erasure request that commits finds the applications that it wipes not wiped.** -/
theorem oneEventPerWipe_iff {s : WipeState} (h : s.Quiet) (ls : List WipeLabel) :
    wipeSystem.Always OneEventPerWipe s ls ↔ wipeSystem.Each StillUnwiped s ls := by
  refine System.always_iff_each (fun hi hp hs => oneEventPerWipe_step hi hp hs) h.inv ?_
  intro a ha hw
  rw [h.events a ha, hw]
  rfl

namespace WipeSample

/-- The two expired applications, and nothing else going on. -/
def quiet : WipeState := ⟨db, fun _ => none, .empty⟩

theorem quiet_quiet : quiet.Quiet := ⟨fun _ => rfl, keyed, by decide⟩

/-- The erasure request of the first applicant. -/
def request : ErasureRequest where
  applicantId := (Uuid.mk 1).str
  requestingPanHmac := []
  requestId := ⟨7⟩
  now := midnight 1

/-- The nightly task wipes the application between the read and the UPDATE of the erasure request. -/
def overlapping : List WipeLabel :=
  [.select 0 request, .selectForUpdate 1 (task []) 0 db.applications, .commit 1, .update 0 ⟨1⟩, .commit 0]

end WipeSample

/-- The run in which the erasure request comes too late. -/
theorem oneEventPerWipe_iff_overlapping :
    wipeSystem.Always OneEventPerWipe WipeSample.quiet WipeSample.overlapping ↔
      wipeSystem.Each StillUnwiped WipeSample.quiet WipeSample.overlapping :=
  oneEventPerWipe_iff WipeSample.quiet_quiet WipeSample.overlapping

/-- After that run the application has two events. -/
theorem overlapping_two_events :
    ¬ ∀ (s s' : WipeState) (ls : List WipeLabel), s.Quiet → wipeSystem.run s ls = some s' → OneEventPerWipe s' := by
  intro h
  have hrun : (wipeSystem.run WipeSample.quiet WipeSample.overlapping).map (fun s => (s.db.applications.map
      (fun a => (a.id, a.retentionWiped)), s.db.eventCount ⟨1⟩)) = some ([(⟨1⟩, true), (⟨2⟩, true)], 2) := by
    decide
  obtain ⟨s, hs, heq⟩ := Option.map_eq_some_iff.mp hrun
  obtain ⟨hrows, hcount⟩ := Prod.mk.inj heq
  obtain ⟨a, ha, hid⟩ := List.mem_map.mp (show ((⟨1⟩ : Uuid), true) ∈ s.db.applications.map _ by rw [hrows]; decide)
  obtain ⟨hid, hw⟩ := Prod.mk.inj hid
  have hone := h _ s _ WipeSample.quiet_quiet hs a ha hw
  rw [hid, hcount] at hone
  cases hone

end ComplianceLoop
