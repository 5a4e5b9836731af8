import Mathlib.Data.List.Dedup
import ComplianceLoop.Db.Session
import ComplianceLoop.Workers.NotificationWorker

/-!
# The stored procedures of migration 0005

`breakGlass` flags the records of one application and queues an alert for its applicant; `breakGlassRange` calls it for
each application with a record in a time range. Both are one transaction: an error leaves the tables alone.

The loop of `break_glass_range` selects `records_flagged` and `notifications_queued`, which are columns of `break_glass`
and variables of the procedure as well. The setting `plpgsql.variable_conflict` of the server decides what they stand
for; by default the statement raises (`breakGlassRange_error`). With `use_column`, `breakGlassRange_eq` says what a call
does to the tables and what it returns: it flags every record of these applications, in whichever order they are
visited. With `use_variable` it does the same and counts nothing (`breakGlassRange_of_ne_error`).
-/

set_option autoImplicit false

namespace ComplianceLoop

open PyLib

/-- The tables that the procedures read and write. -/
structure BreachDb where
  database : Database
  outbox : List NotificationOutbox
  deriving DecidableEq

/-- The foreign key of `audit_records.application_id`. -/
def BreachDb.References (db : BreachDb) : Prop :=
  ∀ r ∈ db.database.auditRecords, r.applicationId ∈ db.database.applications

/-- The rows of a `SELECT DISTINCT`, in some order. -/
structure Distinct where
  rows : List Uuid → List Uuid
  nodup : ∀ xs, (rows xs).Nodup
  mem_iff : ∀ xs u, u ∈ rows xs ↔ u ∈ xs

/-- The order of the last occurrences. -/
def Distinct.dedup : Distinct := ⟨List.dedup, List.nodup_dedup, fun _ _ => List.mem_dedup⟩

/-- `plpgsql.variable_conflict`. -/
inductive VariableConflict where
  | error
  | useVariable
  | useColumn
  deriving DecidableEq

/-- A call reads the clock of its transaction, draws an id for each alert, visits the applications in some order, and
runs under a setting of the server. -/
structure BreachCall where
  now : DateTime
  alertId : Uuid → Uuid
  distinct : Distinct
  variableConflict : VariableConflict

/-- `written_at BETWEEN p_start_time AND p_end_time`. -/
def AuditRecord.inRange (start stop : DateTime) (r : AuditRecord) : Bool :=
  start.instant ≤ r.writtenAt.instant && r.writtenAt.instant ≤ stop.instant

/-- The record after the UPDATE. -/
def AuditRecord.flagged (now : DateTime) (r : AuditRecord) : AuditRecord :=
  { r with
    breachFlag := true
    breachFlaggedAt := some now }

/-- The WHERE clause of the UPDATE, for one of these applications. -/
def AuditRecord.isUnflaggedOf (apps : List Uuid) (r : AuditRecord) : Bool :=
  apps.contains r.applicationId && !r.breachFlag

/-- The `UPDATE audit_records` for these applications. -/
def flagRecords (now : DateTime) (apps : List Uuid) (rows : List AuditRecord) : List AuditRecord :=
  rows.map fun r => if r.isUnflaggedOf apps then r.flagged now else r

/-- How many rows that UPDATE matches. -/
def unflaggedCount (apps : List Uuid) (rows : List AuditRecord) : Nat := rows.countP (AuditRecord.isUnflaggedOf apps)

/-- The alert that is queued for the applicant. -/
def breachAlert (call : BreachCall) (applicationId : Uuid) (recordsAffected : Nat) : NotificationOutbox where
  id := call.alertId applicationId
  notificationType := .breachAlert
  channel := .email
  recipientApplicationId := some applicationId
  recipientEmail := none
  payload :=
    [("application_id".toList, .str applicationId.str), ("breach_detected_at".toList, .timestamp call.now),
      ("records_affected".toList, .int recordsAffected),
      ("message".toList, .str ("A data breach has been detected affecting your application data. ".toList ++
        "You will be contacted with further details within 72 hours.".toList))]
  status := .pending
  retryCount := 0
  maxRetries := 3
  nextRetryAt := none
  sentAt := none
  failureReason := none
  createdAt := call.now.instant
  isDemo := false

/-- What `break_glass` returns. -/
structure BreakGlassRow where
  recordsFlagged : Nat
  notificationsQueued : Nat
  deriving DecidableEq

/-- `break_glass(p_application_id)`. -/
def breakGlass (call : BreachCall) (applicationId : Uuid) (db : BreachDb) : Except PyExc (BreakGlassRow × BreachDb) :=
  let recordsFlagged := unflaggedCount [applicationId] db.database.auditRecords
  if db.database.applications.contains applicationId then
    .ok (⟨recordsFlagged, 1⟩,
      { database := { db.database with auditRecords := flagRecords call.now [applicationId] db.database.auditRecords }
        outbox := db.outbox ++ [breachAlert call applicationId recordsFlagged] })
  else raise .databaseError "insert on notification_outbox violates foreign key constraint".toList

/-- What `break_glass_range` returns. -/
structure BreakGlassRangeRow where
  applicationIdsAffected : Nat
  recordsFlagged : Nat
  notificationsQueued : Nat
  deriving DecidableEq

/-- `COALESCE(v_records, 0)` and `COALESCE(v_notifications, 0)` after the SELECT from `break_glass`: the variables of
the procedure are NULL. -/
def VariableConflict.counts (conflict : VariableConflict) (row : BreakGlassRow) : BreakGlassRow :=
  match conflict with
  | .useVariable => ⟨0, 0⟩
  | _ => row

/-- What the server raises for a name that could be a column or a variable. -/
def ambiguousName : PyExc := ⟨.databaseError, "column reference \"records_flagged\" is ambiguous".toList⟩

/-- The body of the loop. -/
def breakGlassLoop (call : BreachCall) (acc : BreakGlassRangeRow × BreachDb) (applicationId : Uuid) :
    Except PyExc (BreakGlassRangeRow × BreachDb) :=
  if call.variableConflict = .error then .error ambiguousName
  else
    (breakGlass call applicationId acc.2).map fun r =>
      let row := call.variableConflict.counts r.1
      (⟨acc.1.applicationIdsAffected + 1, acc.1.recordsFlagged + row.recordsFlagged,
        acc.1.notificationsQueued + row.notificationsQueued⟩, r.2)

/-- The applications with a record in the range. -/
def affectedApplications (d : Distinct) (start stop : DateTime) (rows : List AuditRecord) : List Uuid :=
  d.rows ((rows.filter (AuditRecord.inRange start stop)).map AuditRecord.applicationId)

/-- `break_glass_range(p_start_time, p_end_time)`. -/
def breakGlassRange (call : BreachCall) (start stop : DateTime) (db : BreachDb) :
    Except PyExc (BreakGlassRangeRow × BreachDb) :=
  (affectedApplications call.distinct start stop db.database.auditRecords).foldlM (breakGlassLoop call) (⟨0, 0, 0⟩, db)

/-- A round of the loop that returns: `break_glass` has returned. -/
theorem breakGlassLoop_ok {call : BreachCall} {acc acc' : BreakGlassRangeRow × BreachDb} {u : Uuid}
    (h : breakGlassLoop call acc u = .ok acc') : ∃ row, breakGlass call u acc.2 = .ok (row, acc'.2) := by
  unfold breakGlassLoop at h
  split at h
  · cases h
  · obtain ⟨⟨row, db⟩, hrun, rfl⟩ := map_eq_ok.mp h
    exact ⟨row, hrun⟩

/-! ## Flagging one application after the other -/

section

variable {now : DateTime} {apps : List Uuid} {a : Uuid} {rows : List AuditRecord} {r : AuditRecord}

theorem isUnflaggedOf_iff : r.isUnflaggedOf apps = true ↔ r.applicationId ∈ apps ∧ r.breachFlag = false := by
  rw [AuditRecord.isUnflaggedOf, Bool.and_eq_true, List.contains_iff_mem, Bool.not_eq_true']

theorem isUnflaggedOf_flagged (now : DateTime) (apps : List Uuid) (r : AuditRecord) :
    (r.flagged now).isUnflaggedOf apps = false := Bool.and_false _

theorem flagRecords_nil (now : DateTime) (rows : List AuditRecord) : flagRecords now [] rows = rows := List.map_id' rows

theorem flagRecords_flagRecords (now : DateTime) (apps apps' : List Uuid) (rows : List AuditRecord) :
    flagRecords now apps' (flagRecords now apps rows) = flagRecords now (apps ++ apps') rows := by
  rw [flagRecords, flagRecords, flagRecords, List.map_map]
  refine List.map_congr_left fun r _ => ?_
  rw [Function.comp_apply]
  by_cases h : r.isUnflaggedOf apps = true
  · have happ := isUnflaggedOf_iff.mp h
    rw [if_pos h, isUnflaggedOf_flagged, if_neg Bool.false_ne_true,
      if_pos (isUnflaggedOf_iff.mpr ⟨List.mem_append_left apps' happ.1, happ.2⟩)]
  · have hiff : r.isUnflaggedOf apps' = true ↔ r.isUnflaggedOf (apps ++ apps') = true := by
      simp only [isUnflaggedOf_iff, List.mem_append] at h ⊢
      tauto
    rw [if_neg h]
    by_cases h' : r.isUnflaggedOf apps' = true
    · rw [if_pos h', if_pos (hiff.mp h')]
    · rw [if_neg h', if_neg (mt hiff.mpr h')]

/-- Flagging other applications does not change the count. -/
theorem unflaggedCount_flagRecords {apps' : List Uuid} (h : ∀ u ∈ apps', u ∉ apps) :
    unflaggedCount apps (flagRecords now apps' rows) = unflaggedCount apps rows := by
  rw [unflaggedCount, unflaggedCount, flagRecords, List.countP_map]
  refine List.countP_congr fun r _ => ?_
  rw [Function.comp_apply]
  by_cases hr : r.isUnflaggedOf apps' = true
  · have hnot : r.applicationId ∉ apps := h _ (isUnflaggedOf_iff.mp hr).1
    rw [if_pos hr, isUnflaggedOf_flagged, isUnflaggedOf_iff]
    simp [hnot]
  · rw [if_neg hr]

theorem unflaggedCount_nil (rows : List AuditRecord) : unflaggedCount [] rows = 0 :=
  List.countP_eq_zero.mpr fun _ _ => Bool.false_ne_true

theorem unflaggedCount_cons (ha : a ∉ apps) :
    unflaggedCount (a :: apps) rows = unflaggedCount [a] rows + unflaggedCount apps rows := by
  induction rows with
  | nil => rfl
  | cons r rows ih =>
    simp only [unflaggedCount, List.countP_cons] at ih ⊢
    have hone : (if r.isUnflaggedOf (a :: apps) = true then 1 else 0) =
        (if r.isUnflaggedOf [a] = true then 1 else 0) + if r.isUnflaggedOf apps = true then 1 else 0 := by
      simp only [isUnflaggedOf_iff, List.mem_cons, List.not_mem_nil, or_false]
      by_cases hr : r.applicationId = a
      · simp [hr, ha]
      · simp [hr]
    omega

theorem VariableConflict.counts_add (conflict : VariableConflict) (r q : BreakGlassRow) :
    conflict.counts ⟨r.recordsFlagged + q.recordsFlagged, r.notificationsQueued + q.notificationsQueued⟩ =
      ⟨(conflict.counts r).recordsFlagged + (conflict.counts q).recordsFlagged,
        (conflict.counts r).notificationsQueued + (conflict.counts q).notificationsQueued⟩ := by
  cases conflict <;> rfl

theorem VariableConflict.counts_le (conflict : VariableConflict) (r : BreakGlassRow) :
    (conflict.counts r).recordsFlagged ≤ r.recordsFlagged := by
  cases conflict
  · exact Nat.le_refl _
  · exact Nat.zero_le _
  · exact Nat.le_refl _

/-- A round of the loop for an application of the table. -/
theorem breakGlassLoop_eq {call : BreachCall} (hc : call.variableConflict ≠ .error) (acc : BreakGlassRangeRow)
    {db : BreachDb} (hfk : a ∈ db.database.applications) :
    let row := call.variableConflict.counts ⟨unflaggedCount [a] db.database.auditRecords, 1⟩
    breakGlassLoop call (acc, db) a =
      .ok (⟨acc.applicationIdsAffected + 1, acc.recordsFlagged + row.recordsFlagged,
          acc.notificationsQueued + row.notificationsQueued⟩,
        { database := { db.database with auditRecords := flagRecords call.now [a] db.database.auditRecords }
          outbox := db.outbox ++ [breachAlert call a (unflaggedCount [a] db.database.auditRecords)] }) := by
  intro row
  have hcontains : db.database.applications.contains a = true := List.contains_iff_mem.mpr hfk
  rw [breakGlassLoop, if_neg hc, breakGlass, if_pos hcontains]
  rfl

/-- **The loop over the applications**: their unflagged records are flagged and counted, and each application has its
alert. -/
theorem foldlM_breakGlassLoop {call : BreachCall} (hc : call.variableConflict ≠ .error) (acc : BreakGlassRangeRow)
    (db : BreachDb) (hn : apps.Nodup) (hfk : ∀ u ∈ apps, u ∈ db.database.applications) :
    let row := call.variableConflict.counts ⟨unflaggedCount apps db.database.auditRecords, apps.length⟩
    apps.foldlM (breakGlassLoop call) (acc, db) =
      .ok (⟨acc.applicationIdsAffected + apps.length, acc.recordsFlagged + row.recordsFlagged,
          acc.notificationsQueued + row.notificationsQueued⟩,
        { database := { db.database with auditRecords := flagRecords call.now apps db.database.auditRecords }
          outbox := db.outbox ++
            apps.map fun u => breachAlert call u (unflaggedCount [u] db.database.auditRecords) }) := by
  intro row
  induction apps generalizing acc db with
  | nil =>
    have hrow : row = ⟨0, 0⟩ := by
      show call.variableConflict.counts ⟨unflaggedCount [] db.database.auditRecords, 0⟩ = _
      rw [unflaggedCount_nil]
      cases call.variableConflict <;> rfl
    rw [flagRecords_nil, hrow, List.map_nil, List.append_nil]
    rfl
  | cons a apps ih =>
    obtain ⟨ha, hn⟩ := List.nodup_cons.mp hn
    have hother : ∀ u ∈ apps, ∀ v ∈ [a], v ∉ [u] := by
      intro u hu v hv hvu
      rw [List.mem_singleton] at hv hvu
      exact ha (hv ▸ hvu ▸ hu)
    have hdisjoint : ∀ u ∈ [a], u ∉ apps := fun u hu => List.mem_singleton.mp hu ▸ ha
    let first := call.variableConflict.counts ⟨unflaggedCount [a] db.database.auditRecords, 1⟩
    rw [List.foldlM_cons, breakGlassLoop_eq hc acc (hfk a List.mem_cons_self)]
    show List.foldlM (breakGlassLoop call) (⟨_, acc.recordsFlagged + first.recordsFlagged,
      acc.notificationsQueued + first.notificationsQueued⟩, _) apps = _
    refine (ih _ _ hn ?_).trans ?_
    · exact fun u hu => hfk u (List.mem_cons_of_mem a hu)
    have halerts : (apps.map fun u => breachAlert call u
          (unflaggedCount [u] (flagRecords call.now [a] db.database.auditRecords))) =
        apps.map fun u => breachAlert call u (unflaggedCount [u] db.database.auditRecords) :=
      List.map_congr_left fun u hu => by rw [unflaggedCount_flagRecords (hother u hu)]
    have hrow : row = ⟨first.recordsFlagged +
          (call.variableConflict.counts ⟨unflaggedCount apps db.database.auditRecords, apps.length⟩).recordsFlagged,
        first.notificationsQueued + (call.variableConflict.counts
          ⟨unflaggedCount apps db.database.auditRecords, apps.length⟩).notificationsQueued⟩ := by
      rw [← VariableConflict.counts_add, ← unflaggedCount_cons ha, Nat.add_comm 1]
      rfl
    simp only [hrow, unflaggedCount_flagRecords hdisjoint, flagRecords_flagRecords, halerts, List.length_cons,
      List.map_cons, List.singleton_append, List.append_assoc, Nat.add_assoc, Nat.add_comm 1]

end

/-! ## The range -/

section

variable {call : BreachCall} {start stop : DateTime} {db : BreachDb}

theorem mem_affectedApplications {d : Distinct} {rows : List AuditRecord} {u : Uuid} :
    u ∈ affectedApplications d start stop rows ↔ ∃ r ∈ rows, r.inRange start stop = true ∧ r.applicationId = u := by
  rw [affectedApplications, d.mem_iff, List.mem_map]
  simp only [List.mem_filter, and_assoc]

/-- By default, a range with a record is refused. -/
theorem breakGlassRange_error (hc : call.variableConflict = .error) :
    breakGlassRange call start stop db =
      if affectedApplications call.distinct start stop db.database.auditRecords = [] then .ok (⟨0, 0, 0⟩, db)
      else .error ambiguousName := by
  unfold breakGlassRange
  cases affectedApplications call.distinct start stop db.database.auditRecords with
  | nil => rfl
  | cons u apps =>
    rw [List.foldlM_cons, breakGlassLoop, if_pos hc, if_neg (List.cons_ne_nil u apps)]
    rfl

/-- **What the procedure does** when it does not raise: every unflagged record of an application with a record in the
range is flagged, and each of these applications has one alert. -/
theorem breakGlassRange_of_ne_error (hc : call.variableConflict ≠ .error) (start stop : DateTime) (h : db.References) :
    let apps := affectedApplications call.distinct start stop db.database.auditRecords
    let row := call.variableConflict.counts ⟨unflaggedCount apps db.database.auditRecords, apps.length⟩
    breakGlassRange call start stop db =
      .ok (⟨apps.length, row.recordsFlagged, row.notificationsQueued⟩,
        { database := { db.database with auditRecords := flagRecords call.now apps db.database.auditRecords }
          outbox := db.outbox ++
            apps.map fun u => breachAlert call u (unflaggedCount [u] db.database.auditRecords) }) := by
  intro apps row
  have hfk : ∀ u ∈ apps, u ∈ db.database.applications := by
    intro u hu
    obtain ⟨r, hr, -, rfl⟩ := mem_affectedApplications.mp hu
    exact h r hr
  have hn : apps.Nodup := call.distinct.nodup _
  have hloop := foldlM_breakGlassLoop hc ⟨0, 0, 0⟩ db hn hfk
  simp only [Nat.zero_add] at hloop
  exact hloop

/-- **With `use_column`** the records are counted, too. -/
theorem breakGlassRange_eq (hc : call.variableConflict = .useColumn) (start stop : DateTime) (h : db.References) :
    let apps := affectedApplications call.distinct start stop db.database.auditRecords
    breakGlassRange call start stop db =
      .ok (⟨apps.length, unflaggedCount apps db.database.auditRecords, apps.length⟩,
        { database := { db.database with auditRecords := flagRecords call.now apps db.database.auditRecords }
          outbox := db.outbox ++
            apps.map fun u => breachAlert call u (unflaggedCount [u] db.database.auditRecords) }) := by
  have hne : call.variableConflict ≠ .error := by
    rw [hc]
    decide
  have hrun := breakGlassRange_of_ne_error hne start stop h
  rw [hc] at hrun
  exact hrun

end

end ComplianceLoop
