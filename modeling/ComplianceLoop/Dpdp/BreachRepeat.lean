import ComplianceLoop.Dpdp.BreachFlags
import ComplianceLoop.Dpdp.BreachResponse

/-!
# A breach response that is repeated

The count that the Board is told and that the report gives is the number of records which this call has flagged. When
a first call commits the stored procedure and raises in a later step, no unflagged record of the scope is left for the
second call, whose count is zero (`second_count_eq_zero`). So a response can be repeated exactly when there is no record
in its scope (`repeatable_iff`), or when the procedure of a range is not committed at all, because the server refuses
its names.
-/

set_option autoImplicit false

namespace ComplianceLoop

open PyLib

/-- The record is in the scope of the response. -/
def BreachArgs.inScope (args : BreachArgs) (r : AuditRecord) : Bool :=
  match args.applicationId with
  | some applicationId => Uuid.parse applicationId = some r.applicationId
  | none =>
    match args.timeRangeStart, args.timeRangeEnd with
    | some start, some stop => r.inRange start stop
    | _, _ => false

/-- The call raises after it has committed the stored procedure. -/
def RaisesAfterCommit (run : BreachRun) (args : BreachArgs) (db : BreachDb) : Prop :=
  returned (breachResponse run args db).1 = false ∧ run.commit ≠ .refused ∧
    returned (breakGlassProcedure run.call args db) = true

/-- The columns that say which record is in which scope and whether it is flagged. -/
def AuditRecord.breachView (r : AuditRecord) : Uuid × DateTime × Bool := (r.applicationId, r.writtenAt, r.breachFlag)

/-- There are no new records; whatever else has happened in between has left these columns alone. -/
def NoNewRecords (db db' : BreachDb) : Prop :=
  db'.References ∧
    db'.database.auditRecords.map AuditRecord.breachView = db.database.auditRecords.map AuditRecord.breachView

/-- On a server with this setting, a second call that completes after a first one that has raised queues a notification
of the Board and reports the flagged records of the scope. -/
def Repeatable (conflict : VariableConflict) (args : BreachArgs) (db : BreachDb) : Prop :=
  ∀ (first second : BreachRun) (db₁ db₂ : BreachDb) (report : BreachReport),
    first.call.variableConflict = conflict → second.call.variableConflict = conflict →
    RaisesAfterCommit first args db → NoNewRecords (breachResponse first args db).2 db₁ →
      second.boardEmail.isEmpty = false → breachResponse second args db₁ = (.ok report, db₂) →
        (∃ queued, db₂.outbox = db₁.outbox ++ queued ∧
          ∃ n ∈ queued, n.notificationType = .breachAlert ∧ n.recipientEmail = some second.boardEmail ∧
            n.status = .pending) ∧
          report.recordsFlagged = db₂.database.auditRecords.countP fun r => args.inScope r && r.breachFlag

section

variable {call : BreachCall} {run : BreachRun} {args : BreachArgs} {db db' : BreachDb} {row : BreakGlassRow}
  {r : AuditRecord}

theorem BreachArgs.inScope_of_some {t : Text} {u : Uuid} (ha : args.applicationId = some t)
    (hu : Uuid.parse t = some u) (r : AuditRecord) : args.inScope r = true ↔ u = r.applicationId := by
  rw [BreachArgs.inScope, ha]
  simp only [hu, decide_eq_true_eq, Option.some.injEq]

theorem BreachArgs.inScope_range {start stop : DateTime} (ha : args.applicationId = none)
    (hs : args.timeRangeStart = some start) (he : args.timeRangeEnd = some stop) (r : AuditRecord) :
    args.inScope r = r.inRange start stop := by
  rw [BreachArgs.inScope, ha, hs, he]

/-- The records that a committed procedure has flagged: those of the applications with a record in the scope. -/
theorem breakGlassProcedure_ok (href : db.References) (h : breakGlassProcedure call args db = .ok (row, db')) :
    ∃ apps, (∀ r ∈ db.database.auditRecords, r.applicationId ∈ apps ↔
          ∃ q ∈ db.database.auditRecords, args.inScope q = true ∧ q.applicationId = r.applicationId) ∧
        row.recordsFlagged ≤ unflaggedCount apps db.database.auditRecords ∧
        db'.database = { db.database with auditRecords := flagRecords call.now apps db.database.auditRecords } ∧
        ∃ queued, db'.outbox = db.outbox ++ queued := by
  obtain ⟨t, u, ha, hu, hrun⟩ | ⟨ha, start, stop, hs, he, counts, hrun, rfl⟩ := breakGlassProcedure_cases h
  · simp only [breakGlass] at hrun
    split at hrun
    · obtain ⟨rfl, rfl⟩ := Prod.mk.inj (Except.ok.inj hrun)
      refine ⟨[u], fun r hr => ?_, Nat.le_refl _, rfl, _, rfl⟩
      simp only [List.mem_singleton, BreachArgs.inScope_of_some ha hu]
      constructor
      · rintro rfl
        exact ⟨r, hr, rfl, rfl⟩
      · rintro ⟨q, -, rfl, hq⟩
        exact hq.symm
    · cases hrun
  · refine ⟨affectedApplications call.distinct start stop db.database.auditRecords, fun r _ => ?_, ?_⟩
    · simp only [BreachArgs.inScope_range ha hs he]
      exact mem_affectedApplications
    by_cases hc : call.variableConflict = .error
    · rw [breakGlassRange_error hc] at hrun
      split at hrun
      · rename_i hempty
        obtain ⟨rfl, rfl⟩ := Prod.mk.inj (Except.ok.inj hrun)
        rw [hempty, flagRecords_nil]
        exact ⟨Nat.zero_le _, rfl, [], (List.append_nil _).symm⟩
      · cases hrun
    · rw [breakGlassRange_of_ne_error hc _ _ href] at hrun
      obtain ⟨rfl, rfl⟩ := Prod.mk.inj (Except.ok.inj hrun)
      exact ⟨call.variableConflict.counts_le _, rfl, _, rfl⟩

/-- With a record in its scope, the procedure does not raise, unless it is that of a range and the server refuses its
names. -/
theorem returned_breakGlassProcedure {call : BreachCall}
    (hc : ¬ (call.variableConflict = .error ∧ args.applicationId = none)) (href : db.References)
    (hr : r ∈ db.database.auditRecords) (hscope : args.inScope r = true) :
    returned (breakGlassProcedure call args db) = true := by
  unfold BreachArgs.inScope at hscope
  unfold breakGlassProcedure
  cases ha : args.applicationId with
  | some applicationId =>
    rw [ha] at hscope
    have hu : Uuid.parse applicationId = some r.applicationId := of_decide_eq_true hscope
    have hfk : db.database.applications.contains r.applicationId = true := by simpa using href r hr
    simp only [hu, breakGlass, if_pos hfk]
    rfl
  | none =>
    rw [ha] at hscope
    cases hs : args.timeRangeStart with
    | none =>
      rw [hs] at hscope
      cases hscope
    | some start =>
      cases he : args.timeRangeEnd with
      | none =>
        rw [hs, he] at hscope
        cases hscope
      | some stop =>
        have hne : call.variableConflict ≠ .error := fun hconflict => hc ⟨hconflict, ha⟩
        simp only [breakGlassRange_of_ne_error hne _ _ href]
        rfl

/-- When the server refuses the names, the procedure of a range returns only without a record in the range. -/
theorem not_inScope_of_error (hc : call.variableConflict = .error) (ha : args.applicationId = none)
    (h : breakGlassProcedure call args db = .ok (row, db')) (hr : r ∈ db.database.auditRecords) :
    args.inScope r = false := by
  obtain ⟨t, u, ht, -⟩ | ⟨-, start, stop, hs, he, counts, hrun, -⟩ := breakGlassProcedure_cases h
  · rw [ha] at ht
    cases ht
  · rw [breakGlassRange_error hc] at hrun
    split at hrun
    · rename_i hempty
      rw [BreachArgs.inScope_range ha hs he]
      refine Bool.eq_false_iff.mpr fun hin => ?_
      have hmem := (mem_affectedApplications (d := call.distinct)).mpr ⟨r, hr, hin, rfl⟩
      rw [hempty] at hmem
      cases hmem
    · cases hrun

/-- The steps after the procedure leave the audit records alone. -/
theorem queueBoardNotification_database (run : BreachRun) (count : Nat) (ids : List Text) (severity : Text)
    (db : BreachDb) : (queueBoardNotification run count ids severity db).2.database = db.database := by
  unfold queueBoardNotification
  split
  · rfl
  · cases run.board <;> rfl

/-- The procedure has its arguments. -/
theorem given_of_procedure (h : breakGlassProcedure call args db = .ok (row, db')) :
    ¬ (args.applicationId.isNone && (args.timeRangeStart.isNone || args.timeRangeEnd.isNone)) = true := by
  obtain ⟨t, u, ha, -⟩ | ⟨-, start, stop, hs, he, -⟩ := breakGlassProcedure_cases h
  · simp [ha]
  · simp [hs, he]

/-- After a committed procedure the records are as it has left them, wherever the call ends. -/
theorem breachResponse_database (h : breakGlassProcedure run.call args db = .ok (row, db'))
    (hc : run.commit ≠ .refused) :
    (breachResponse run args db).2.database = db'.database := by
  have hcall : ∃ result, callBreakGlassProcedure run args db = (result, db') := by
    unfold callBreakGlassProcedure
    rw [h]
    cases hcommit : run.commit with
    | refused => exact absurd hcommit hc
    | done => exact ⟨_, rfl⟩
    | unacknowledged => exact ⟨_, rfl⟩
  obtain ⟨result, hresult⟩ := hcall
  unfold breachResponse
  rw [if_neg (given_of_procedure h), hresult]
  cases result with
  | error e => rfl
  | ok row =>
    cases run.freeze with
    | error e => rfl
    | ok frozen =>
      simp only
      cases getAffectedApplicationIds run args db' with
      | error e => rfl
      | ok ids =>
        simp only
        have hboard := queueBoardNotification_database run row.recordsFlagged ids args.severity db'
        generalize queueBoardNotification run row.recordsFlagged ids args.severity db' = board at hboard ⊢
        obtain ⟨outcome, db₂⟩ := board
        cases outcome <;> exact hboard

/-- When its query does not fail, the lookup returns. -/
theorem getAffectedApplicationIds_ok (h : breakGlassProcedure call args db = .ok (row, db'))
    (hl : returned run.lookup = true) (db : BreachDb) : ∃ ids, getAffectedApplicationIds run args db = .ok ids := by
  obtain ⟨t, u, ha, hu, -⟩ | ⟨ha, start, stop, hs, he, -⟩ := breakGlassProcedure_cases h
  · exact ⟨[t], getAffectedApplicationIds_some ha hu⟩
  · obtain ⟨answer, hlookup⟩ := returned_iff.mp hl
    exact ⟨_, by rw [getAffectedApplicationIds_range ha hs he, hlookup]; rfl⟩

/-- A call of which no step fails completes. -/
theorem breachResponse_completes (h : breakGlassProcedure run.call args db = .ok (row, db')) (hc : run.commit = .done)
    (hf : returned run.freeze = true) (hl : returned run.lookup = true) (hb : run.board = .done) :
    ∃ report db'', breachResponse run args db = (.ok report, db'') := by
  obtain ⟨frozen, hfrozen⟩ := returned_iff.mp hf
  obtain ⟨ids, hids⟩ := getAffectedApplicationIds_ok h hl db'
  have hcall : callBreakGlassProcedure run args db = (.ok row, db') := by
    unfold callBreakGlassProcedure
    rw [h, hc]
    rfl
  have hboard : ∃ db'', queueBoardNotification run row.recordsFlagged ids args.severity db' = (.ok (), db'') := by
    unfold queueBoardNotification
    rw [hb]
    split
    · exact ⟨_, rfl⟩
    · exact ⟨_, rfl⟩
  obtain ⟨db'', hboard⟩ := hboard
  refine ⟨breachReport run args row frozen ids, db'', ?_⟩
  unfold breachResponse
  rw [if_neg (given_of_procedure h), hcall]
  simp only [hfrozen, hids, hboard]

theorem inScope_congr {q : AuditRecord} (ha : q.applicationId = r.applicationId) (hw : q.writtenAt = r.writtenAt) :
    args.inScope q = args.inScope r := by
  unfold BreachArgs.inScope AuditRecord.inRange
  rw [ha, hw]

/-- A record after the UPDATE, seen as the scope sees it. -/
theorem scope_flagged (now : DateTime) (apps : List Uuid) (r : AuditRecord) :
    let after := if r.isUnflaggedOf apps then r.flagged now else r
    after.applicationId = r.applicationId ∧ after.writtenAt = r.writtenAt ∧
      (r.applicationId ∈ apps → after.breachFlag = true) := by
  intro after
  by_cases hu : r.isUnflaggedOf apps = true
  · rw [show after = r.flagged now from if_pos hu]
    exact ⟨rfl, rfl, fun _ => rfl⟩
  · rw [show after = r from if_neg hu]
    refine ⟨rfl, rfl, fun ha => ?_⟩
    by_contra hflag
    exact hu (isUnflaggedOf_iff.mpr ⟨ha, Bool.eq_false_of_not_eq_true hflag⟩)

theorem mem_flagRecords {now : DateTime} {apps : List Uuid} {rows : List AuditRecord}
    (h : r ∈ flagRecords now apps rows) :
    ∃ q ∈ rows, q.applicationId = r.applicationId ∧ q.writtenAt = r.writtenAt ∧
      (q.applicationId ∈ apps → r.breachFlag = true) := by
  obtain ⟨q, hq, rfl⟩ := List.mem_map.mp h
  obtain ⟨ha, hw, hflag⟩ := scope_flagged now apps q
  exact ⟨q, hq, ha.symm, hw.symm, hflag⟩

theorem mem_flagRecords_of_mem (now : DateTime) (apps : List Uuid) {rows : List AuditRecord} (h : r ∈ rows) :
    ∃ q ∈ flagRecords now apps rows, q.applicationId = r.applicationId ∧ q.writtenAt = r.writtenAt ∧
      (r.applicationId ∈ apps → q.breachFlag = true) := by
  exact ⟨_, List.mem_map_of_mem h, scope_flagged now apps r⟩

theorem references_flagRecords (href : db.References) (now : DateTime) (apps : List Uuid)
    (h : db'.database = { db.database with auditRecords := flagRecords now apps db.database.auditRecords }) :
    db'.References := by
  intro r hr
  rw [h] at hr ⊢
  obtain ⟨q, hq, ha, -⟩ := mem_flagRecords hr
  exact ha ▸ href q hq

/-- Records that are seen alike correspond. -/
theorem mem_of_breachView {rows rows' : List AuditRecord}
    (h : rows'.map AuditRecord.breachView = rows.map AuditRecord.breachView) (hr : r ∈ rows') :
    ∃ q ∈ rows, q.applicationId = r.applicationId ∧ q.writtenAt = r.writtenAt ∧ q.breachFlag = r.breachFlag := by
  have hview : r.breachView ∈ rows.map AuditRecord.breachView := h ▸ List.mem_map_of_mem hr
  obtain ⟨q, hq, he⟩ := List.mem_map.mp hview
  obtain ⟨ha, he⟩ := Prod.mk.inj he
  obtain ⟨hw, hf⟩ := Prod.mk.inj he
  exact ⟨q, hq, ha, hw, hf⟩

/-- After a committed procedure every record of an application with a record in the scope is flagged. -/
theorem flagged_after (href : db.References) (h : breakGlassProcedure call args db = .ok (row, db'))
    (hr : r ∈ db'.database.auditRecords)
    (hscope : ∃ q ∈ db'.database.auditRecords, args.inScope q = true ∧ q.applicationId = r.applicationId) :
    r.breachFlag = true := by
  obtain ⟨apps, happs, -, hdb, -⟩ := breakGlassProcedure_ok href h
  rw [hdb] at hr hscope
  obtain ⟨q, hq, ha, -, hflag⟩ := mem_flagRecords hr
  obtain ⟨p, hp, hin, he⟩ := hscope
  obtain ⟨p', hp', ha', hw', -⟩ := mem_flagRecords hp
  exact hflag ((happs q hq).mpr ⟨p', hp', (inScope_congr ha' hw').trans hin, ha'.trans (he.trans ha.symm)⟩)

/-- **The second call counts nothing**: when the first call has committed the procedure and no records have come in, no
unflagged record of an affected application is left. -/
theorem second_count_eq_zero {first : BreachRun} {db₁ db₂ : BreachDb} {report : BreachReport} (href : db.References)
    (hfirst : RaisesAfterCommit first args db) (hbetween : NoNewRecords (breachResponse first args db).2 db₁)
    (h : breachResponse run args db₁ = (.ok report, db₂)) : report.recordsFlagged = 0 := by
  obtain ⟨-, hcommit, hproc⟩ := hfirst
  obtain ⟨⟨row₀, db₀⟩, hproc⟩ := returned_iff.mp hproc
  obtain ⟨href₁, hview⟩ := hbetween
  rw [breachResponse_database hproc hcommit] at hview
  obtain ⟨row, db', frozen, ids, hsecond, rfl, -⟩ := breachResponse_ok h
  obtain ⟨apps, happs, hcount, -, -⟩ := breakGlassProcedure_ok href₁ hsecond
  have hzero : unflaggedCount apps db₁.database.auditRecords = 0 := by
    rw [unflaggedCount, List.countP_eq_zero]
    intro r hr hu
    obtain ⟨happ, hunflagged⟩ := isUnflaggedOf_iff.mp hu
    obtain ⟨q, hq, hin, he⟩ := (happs r hr).mp happ
    obtain ⟨r', hr', ha', hw', hf'⟩ := mem_of_breachView hview hr
    obtain ⟨q', hq', haq, hwq, -⟩ := mem_of_breachView hview hq
    have hflagged := flagged_after href hproc hr'
      ⟨q', hq', (inScope_congr haq hwq).trans hin, haq.trans (he.trans ha'.symm)⟩
    rw [hf', hunflagged] at hflagged
    cases hflagged
  rw [hzero] at hcount
  exact Nat.le_zero.mp hcount

/-- A call whose freeze is interrupted raises after the commit. -/
theorem raisesAfterCommit_of_freeze {e : PyExc} (h : breakGlassProcedure run.call args db = .ok (row, db'))
    (hc : run.commit = .done) (hf : run.freeze = .error e) : RaisesAfterCommit run args db := by
  have hproc : returned (breakGlassProcedure run.call args db) = true := returned_iff.mpr ⟨_, h⟩
  refine ⟨?_, by simp [hc], hproc⟩
  have hcall : callBreakGlassProcedure run args db = (.ok row, db') := by
    unfold callBreakGlassProcedure
    rw [h, hc]
    rfl
  unfold breachResponse
  rw [if_neg (given_of_procedure h), hcall]
  simp only [hf]
  rfl

/-- The Board has its notification from every call that returns. -/
theorem board_notified {report : BreachReport} (href : db.References)
    (hemail : run.boardEmail.isEmpty = false) (h : breachResponse run args db = (.ok report, db')) :
    ∃ queued, db'.outbox = db.outbox ++ queued ∧
      ∃ n ∈ queued, n.notificationType = .breachAlert ∧ n.recipientEmail = some run.boardEmail ∧
        n.status = .pending := by
  obtain ⟨row, db₁, frozen, ids, hproc, -, hdb⟩ := breachResponse_ok h
  obtain ⟨-, -, -, -, queued, hqueued⟩ := breakGlassProcedure_ok href hproc
  rw [hemail, if_neg Bool.false_ne_true] at hdb
  subst hdb
  refine ⟨queued ++ [boardNotification run row.recordsFlagged ids args.severity], ?_, _,
    List.mem_append_right queued List.mem_cons_self, rfl, rfl, rfl⟩
  simp [hqueued]

/-- A call leaves the records as the scope sees them. -/
theorem inScope_after {report : BreachReport} (href : db.References)
    (h : breachResponse run args db = (.ok report, db')) (hr : r ∈ db'.database.auditRecords) :
    ∃ q ∈ db.database.auditRecords, args.inScope q = args.inScope r := by
  obtain ⟨row, db₁, frozen, ids, hproc, -, hdb⟩ := breachResponse_ok h
  obtain ⟨apps, -, -, hflagged, -⟩ := breakGlassProcedure_ok href hproc
  have hrows : db'.database.auditRecords = flagRecords run.call.now apps db.database.auditRecords := by
    rw [hdb]
    split <;> simp [hflagged]
  rw [hrows] at hr
  obtain ⟨q, hq, ha, hw, -⟩ := mem_flagRecords hr
  exact ⟨q, hq, inScope_congr ha hw⟩

/-- With a record in its scope, a response cannot be repeated, unless the server refuses its procedure. -/
theorem not_inScope_of_repeatable {conflict : VariableConflict} (href : db.References)
    (hrepeat : Repeatable conflict args db) (hc : ¬ (conflict = .error ∧ args.applicationId = none))
    (hr : r ∈ db.database.auditRecords) : args.inScope r = false := by
  by_contra hscope
  rw [Bool.not_eq_false] at hscope
  -- the first call is interrupted at its freeze, the second one by nothing
  let first : BreachRun := ⟨r.writtenAt, ⟨r.writtenAt, id, .dedup, conflict⟩, .done, raise .databaseError [], .ok (),
    .dedup, "board".toList, r.writtenAt, r.id, .done, r.id⟩
  let second : BreachRun := { first with freeze := .ok 0 }
  have hfirst : returned (breakGlassProcedure first.call args db) = true :=
    returned_breakGlassProcedure hc href hr hscope
  obtain ⟨⟨row, db'⟩, hproc⟩ := returned_iff.mp hfirst
  have hraises : RaisesAfterCommit first args db := raisesAfterCommit_of_freeze hproc rfl rfl
  have hdb := breachResponse_database hproc (by simp [first])
  obtain ⟨apps, happs, -, hflagged, -⟩ := breakGlassProcedure_ok href hproc
  have href₁ : (breachResponse first args db).2.References :=
    references_flagRecords href first.call.now apps (hdb.trans hflagged)
  have hrows : (breachResponse first args db).2.database.auditRecords =
      flagRecords first.call.now apps db.database.auditRecords := by
    rw [hdb, hflagged]
  obtain ⟨q, hq, ha, hw, -⟩ := mem_flagRecords_of_mem first.call.now apps hr
  have hq₁ : q ∈ (breachResponse first args db).2.database.auditRecords := hrows ▸ hq
  have hscope₁ : args.inScope q = true := (inScope_congr ha hw).trans hscope
  have hreturned : returned (breakGlassProcedure second.call args (breachResponse first args db).2) = true :=
    returned_breakGlassProcedure hc href₁ hq₁ hscope₁
  obtain ⟨⟨row₂, db''⟩, hsecond⟩ := returned_iff.mp hreturned
  obtain ⟨report, db₂, hresponse⟩ := breachResponse_completes hsecond rfl rfl rfl rfl
  obtain ⟨-, hreport⟩ := hrepeat first second _ db₂ report rfl rfl hraises ⟨href₁, rfl⟩ rfl hresponse
  rw [second_count_eq_zero href hraises ⟨href₁, rfl⟩ hresponse] at hreport
  have hnone := List.countP_eq_zero.mp hreport.symm
  -- the record is in the tables after the second call, and flagged
  obtain ⟨apps₂, happs₂, -, hdb₂, -⟩ := breakGlassProcedure_ok href₁ hsecond
  obtain ⟨p, hp, hap, hwp, hflag⟩ := mem_flagRecords_of_mem second.call.now apps₂ hq₁
  have hp₂ : p ∈ db₂.database.auditRecords := by
    have hfinal := breachResponse_database hsecond (by simp [second, first])
    rw [hresponse] at hfinal
    rw [hfinal, hdb₂]
    exact hp
  refine hnone p hp₂ (Bool.and_eq_true_iff.mpr ⟨(inScope_congr hap hwp).trans hscope₁, hflag ?_⟩)
  exact (happs₂ q hq₁).mpr ⟨q, hq₁, hscope₁, rfl⟩

/-- Without a record in its scope, a response can be repeated. -/
theorem repeatable_of_noneInScope {first second : BreachRun} {db₁ db₂ : BreachDb} {report : BreachReport}
    (href : db.References) (hnone : ∀ r ∈ db.database.auditRecords, args.inScope r = false)
    (hraises : RaisesAfterCommit first args db) (hbetween : NoNewRecords (breachResponse first args db).2 db₁)
    (hresponse : breachResponse second args db₁ = (.ok report, db₂)) :
    report.recordsFlagged = db₂.database.auditRecords.countP fun r => args.inScope r && r.breachFlag := by
  rw [second_count_eq_zero href hraises hbetween hresponse, eq_comm, List.countP_eq_zero]
  intro r hr hflagged
  obtain ⟨-, hcommit, hproc⟩ := hraises
  obtain ⟨⟨row, db'⟩, hproc⟩ := returned_iff.mp hproc
  obtain ⟨apps, -, -, hdb', -⟩ := breakGlassProcedure_ok href hproc
  have hview := hbetween.2
  rw [breachResponse_database hproc hcommit, hdb'] at hview
  -- the record goes back to one of the first tables, in the scope as well
  obtain ⟨q, hq, hin⟩ := inScope_after hbetween.1 hresponse hr
  obtain ⟨q', hq', ha, hw, -⟩ := mem_of_breachView hview hq
  obtain ⟨p, hp, hap, hwp, -⟩ := mem_flagRecords hq'
  have hscope := hnone p hp
  rw [inScope_congr hap hwp, inScope_congr ha hw, hin, (Bool.and_eq_true_iff.mp hflagged).1] at hscope
  cases hscope

/-- **A response can be repeated if and only if no record is in its scope, or it is that of a range and the server
refuses its procedure.** -/
theorem repeatable_iff {conflict : VariableConflict} (href : db.References) :
    Repeatable conflict args db ↔
      (∀ r ∈ db.database.auditRecords, args.inScope r = false) ∨ conflict = .error ∧ args.applicationId = none := by
  constructor
  · intro hrepeat
    by_cases hc : conflict = .error ∧ args.applicationId = none
    · exact .inr hc
    · exact .inl fun r hr => not_inScope_of_repeatable href hrepeat hc hr
  · intro hcond first second db₁ db₂ report hfirst hsecond hraises hbetween hemail hresponse
    have hnone : ∀ r ∈ db.database.auditRecords, args.inScope r = false := by
      rcases hcond with hnone | ⟨hc, ha⟩
      · exact hnone
      · obtain ⟨-, -, hproc⟩ := hraises
        obtain ⟨⟨row, db'⟩, hproc⟩ := returned_iff.mp hproc
        exact fun r hr => not_inScope_of_error (hfirst.trans hc) ha hproc hr
    exact ⟨board_notified hbetween.1 hemail hresponse,
      repeatable_of_noneInScope href hnone hraises hbetween hresponse⟩

end

/-- The application of the first sample record. -/
def BreachSample.args : BreachArgs := ⟨some (Sample.uuid 1).str, none, none, "HIGH".toList⟩

theorem repeatable_iff_sample :
    Repeatable .useColumn BreachSample.args BreachSample.db ↔
      (∀ r ∈ BreachSample.db.database.auditRecords, BreachSample.args.inScope r = false) ∨
        VariableConflict.useColumn = .error ∧ BreachSample.args.applicationId = none :=
  repeatable_iff BreachSample.references

/-- The record of the first day is in the scope, so that the second report does not count it. -/
theorem second_report_counts_nothing :
    ¬ ∀ (conflict : VariableConflict) (args : BreachArgs) (db : BreachDb), db.References →
      Repeatable conflict args db := by
  intro h
  have hnone := not_inScope_of_repeatable (r := BreachSample.record 1 1 0) BreachSample.references
    (h .error BreachSample.args BreachSample.db BreachSample.references) (fun hc => nomatch hc.2) List.mem_cons_self
  exact absurd hnone (by decide)

end ComplianceLoop
