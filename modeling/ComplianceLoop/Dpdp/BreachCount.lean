import Mathlib.Data.Finset.Card
import Mathlib.Data.Finset.Option
import ComplianceLoop.Dpdp.BreachRepeat

/-!
# The applications that a breach report counts

The report of a range has a thousand of its applications at most, and that of a single application has this one,
whether or not there is a record of it (`reportsAffected`). So the report and the notification of the Board have
exactly the applications with a record in the scope when these are not more than a thousand, and the application that
is named has a record (`countsAffected_iff`).
-/

set_option autoImplicit false

namespace ComplianceLoop

open PyLib

/-- The applications that have a record in the scope. -/
def BreachArgs.affected (args : BreachArgs) (rows : List AuditRecord) : Finset Uuid :=
  ((rows.filter args.inScope).map AuditRecord.applicationId).toFinset

/-- The applications that the response is about: the one that is named, or those with a record in the range. -/
def BreachArgs.subject (args : BreachArgs) (rows : List AuditRecord) : Finset Uuid :=
  match args.applicationId with
  | some applicationId => (Uuid.parse applicationId).toFinset
  | none => args.affected rows

/-- `affected_applications_count` of the notification that was queued last. -/
def boardCount (outbox : List NotificationOutbox) : Option Int :=
  outbox.getLast?.bind fun n =>
    match n.payload.lookup "affected_applications_count".toList with
    | some (.int count) => some count
    | _ => none

/-- The report and the notification of the Board have exactly the applications with a record in the scope. -/
def CountsAffected (args : BreachArgs) (rows : List AuditRecord) (report : BreachReport)
    (outbox : List NotificationOutbox) : Prop :=
  (∃ us : List Uuid, report.breachScope.applicationIds.map Uuid.parse = us.map some ∧ us.Nodup ∧
      us.toFinset = args.affected rows) ∧
    boardCount outbox = some ((args.affected rows).card : Int)

/-- The report has the applications that the response is about, each once, and a thousand of them at most; when it has
all of them, the notification of the Board has their number. -/
def ReportsAffected (args : BreachArgs) (rows : List AuditRecord) (report : BreachReport)
    (outbox : List NotificationOutbox) : Prop :=
  (∃ us : List Uuid, report.breachScope.applicationIds.map Uuid.parse = us.map some ∧ us.Nodup ∧
      us.toFinset ⊆ args.subject rows ∧ us.length = min 1000 (args.subject rows).card) ∧
    ((args.subject rows).card ≤ 1000 → boardCount outbox = some ((args.subject rows).card : Int))

/-! ## The tables after the procedure -/

section

variable {call : BreachCall} {run : BreachRun} {args : BreachArgs} {db db' : BreachDb} {row : BreakGlassRow}

theorem inScope_flag (args : BreachArgs) (now : DateTime) (apps : List Uuid) (r : AuditRecord) :
    args.inScope (if r.isUnflaggedOf apps then r.flagged now else r) = args.inScope r ∧
      (if r.isUnflaggedOf apps then r.flagged now else r).applicationId = r.applicationId := by
  split
  · exact ⟨rfl, rfl⟩
  · exact ⟨rfl, rfl⟩

theorem affected_flagRecords (args : BreachArgs) (now : DateTime) (apps : List Uuid) (rows : List AuditRecord) :
    args.affected (flagRecords now apps rows) = args.affected rows := by
  ext u
  simp only [BreachArgs.affected, flagRecords, List.mem_toFinset, List.mem_map, List.mem_filter]
  constructor
  · rintro ⟨q, ⟨⟨r, hr, rfl⟩, hscope⟩, rfl⟩
    obtain ⟨hs, hid⟩ := inScope_flag args now apps r
    exact ⟨r, ⟨hr, hs ▸ hscope⟩, hid.symm⟩
  · rintro ⟨r, ⟨hr, hscope⟩, rfl⟩
    obtain ⟨hs, hid⟩ := inScope_flag args now apps r
    exact ⟨_, ⟨⟨r, hr, rfl⟩, hs.trans hscope⟩, hid⟩

theorem affected_breakGlass {u : Uuid} (h : breakGlass call u db = .ok (row, db')) :
    args.affected db'.database.auditRecords = args.affected db.database.auditRecords := by
  unfold breakGlass at h
  simp only at h
  split at h
  · obtain ⟨-, rfl⟩ := Prod.mk.inj (Except.ok.inj h)
    exact affected_flagRecords args call.now [u] _
  · cases h

/-- The loop over the applications leaves the scope as it is. -/
theorem affected_foldlM {apps : List Uuid} {acc acc' : BreakGlassRangeRow}
    (h : apps.foldlM (breakGlassLoop call) (acc, db) = .ok (acc', db')) :
    args.affected db'.database.auditRecords = args.affected db.database.auditRecords := by
  induction apps generalizing acc db with
  | nil =>
    obtain ⟨-, rfl⟩ := Prod.mk.inj (Except.ok.inj h)
    rfl
  | cons u apps ih =>
    rw [List.foldlM_cons] at h
    obtain ⟨⟨m, dbm⟩, hm, hrest⟩ := bind_eq_ok.mp h
    obtain ⟨row, hr⟩ := breakGlassLoop_ok hm
    exact (ih hrest).trans (affected_breakGlass hr)

theorem affected_breakGlassProcedure (h : breakGlassProcedure call args db = .ok (row, db')) :
    args.affected db'.database.auditRecords = args.affected db.database.auditRecords := by
  obtain ⟨t, u, -, -, hrun⟩ | ⟨-, start, stop, -, -, counts, hrun, -⟩ := breakGlassProcedure_cases h
  · exact affected_breakGlass hrun
  · exact affected_foldlM hrun

/-! ## The lookup -/

theorem BreachArgs.subject_of_some {t : Text} {u : Uuid} {rows : List AuditRecord} (ha : args.applicationId = some t)
    (hu : Uuid.parse t = some u) : args.subject rows = {u} := by
  rw [BreachArgs.subject, ha]
  simp [hu]

/-- The applications of a range are those of the query. -/
theorem affected_range {start stop : DateTime} (ha : args.applicationId = none) (hs : args.timeRangeStart = some start)
    (he : args.timeRangeEnd = some stop) (d : Distinct) (rows : List AuditRecord) :
    (affectedApplications d start stop rows).toFinset = args.affected rows := by
  ext u
  rw [List.mem_toFinset, mem_affectedApplications]
  simp only [BreachArgs.affected, BreachArgs.inScope, ha, hs, he, List.mem_toFinset, List.mem_map, List.mem_filter,
    and_assoc]

/-- The first of some applications, as they are reported. -/
theorem reported_take {apps : List Uuid} (hn : apps.Nodup) (limit : Nat) :
    ∃ us : List Uuid, ((apps.take limit).map Uuid.str).map Uuid.parse = us.map some ∧ us.Nodup ∧
      us.toFinset ⊆ apps.toFinset ∧ us.length = min limit apps.toFinset.card := by
  have hinverse : Uuid.parse ∘ Uuid.str = some := by
    funext u
    rw [Function.comp_apply, Uuid.parse_str]
  refine ⟨apps.take limit, ?_, hn.sublist (List.take_sublist limit apps), fun u hu => ?_, ?_⟩
  · rw [List.map_map, hinverse]
  · exact List.mem_toFinset.mpr (List.mem_of_mem_take (List.mem_toFinset.mp hu))
  · rw [List.length_take, List.toFinset_card_of_nodup hn]

/-- What the lookup returns after the procedure: applications that the response is about, each once, and a thousand of
them at most. -/
theorem getAffectedApplicationIds_spec {ids : List Text} (hp : breakGlassProcedure call args db = .ok (row, db'))
    (h : getAffectedApplicationIds run args db' = .ok ids) :
    ∃ us : List Uuid, ids.map Uuid.parse = us.map some ∧ us.Nodup ∧
      us.toFinset ⊆ args.subject db.database.auditRecords ∧
      us.length = min 1000 (args.subject db.database.auditRecords).card := by
  have hscope := affected_breakGlassProcedure hp
  obtain ⟨t, u, ha, hu, -⟩ | ⟨ha, start, stop, hs, he, -⟩ := breakGlassProcedure_cases hp
  · rw [getAffectedApplicationIds_some ha hu] at h
    obtain rfl := Except.ok.inj h
    refine ⟨[u], ?_, List.nodup_singleton u, ?_, ?_⟩ <;> simp [BreachArgs.subject_of_some ha hu, hu]
  · have hsubject : args.subject db.database.auditRecords = args.affected db'.database.auditRecords := by
      rw [hscope, BreachArgs.subject, ha]
    rw [getAffectedApplicationIds_range ha hs he] at h
    obtain ⟨-, -, rfl⟩ := map_eq_ok.mp h
    rw [hsubject, ← affected_range ha hs he run.distinct db'.database.auditRecords]
    exact reported_take (run.distinct.nodup _) 1000

/-! ## The report and the Board -/

variable {report : BreachReport}

/-- With an address of the Board, its notification has the number of the applications in the report. -/
theorem boardCount_breachResponse (hboard : run.boardEmail.isEmpty = false)
    (h : breachResponse run args db = (.ok report, db')) :
    boardCount db'.outbox = some (report.breachScope.applicationIds.length : Int) := by
  obtain ⟨row, db₁, frozen, ids, -, -, -, hqueue, rfl⟩ := breachResponse_steps h
  rw [queueBoardNotification_ok hqueue, if_neg (by rw [hboard]; exact Bool.false_ne_true), boardCount]
  simp [boardNotification, breachReport, List.lookup_cons]

/-- A response that completes reports the applications it is about, a thousand of them at most, and tells the Board
their number when it reports all of them. -/
theorem reportsAffected_of_ok (hboard : run.boardEmail.isEmpty = false)
    (h : breachResponse run args db = (.ok report, db')) :
    ReportsAffected args db.database.auditRecords report db'.outbox := by
  have hcount := boardCount_breachResponse hboard h
  obtain ⟨row, db₁, frozen, ids, hp, -, hlookup, -, rfl⟩ := breachResponse_steps h
  obtain ⟨us, hus, hn, hsub, hlen⟩ := getAffectedApplicationIds_spec hp hlookup
  refine ⟨⟨us, hus, hn, hsub, hlen⟩, fun hle => ?_⟩
  have hids : ids.length = us.length := by simpa using congrArg List.length hus
  rw [hcount]
  show some (ids.length : Int) = _
  rw [hids, hlen, Nat.min_eq_right hle]

theorem card_subject_of_some {rows : List AuditRecord} (ha : args.applicationId.isSome = true) :
    (args.subject rows).card ≤ 1 := by
  obtain ⟨t, ht⟩ := Option.isSome_iff_exists.mp ha
  rw [BreachArgs.subject, ht]
  cases hu : Uuid.parse t <;> simp [hu]

/-- The report and the Board have exactly the affected applications when a single application has a record, and when
the applications of a range are a thousand at most. -/
theorem countsAffected_iff (hboard : run.boardEmail.isEmpty = false)
    (h : breachResponse run args db = (.ok report, db')) :
    CountsAffected args db.database.auditRecords report db'.outbox ↔
      args.subject db.database.auditRecords = args.affected db.database.auditRecords ∧
        (args.affected db.database.auditRecords).card ≤ 1000 := by
  obtain ⟨⟨us, hus, hn, hsub, hlen⟩, hcount⟩ := reportsAffected_of_ok hboard h
  constructor
  · rintro ⟨⟨vs, hvs, -, hset⟩, -⟩
    obtain rfl : vs = us := List.map_injective_iff.mpr (Option.some_injective Uuid) (hvs.symm.trans hus)
    have hcard : (args.affected db.database.auditRecords).card = vs.length := by
      rw [← hset, List.toFinset_card_of_nodup hn]
    refine ⟨?_, by omega⟩
    cases ha : args.applicationId with
    | none => rw [BreachArgs.subject, ha]
    | some t =>
      have hone : (args.subject db.database.auditRecords).card ≤ 1 := card_subject_of_some (by rw [ha]; rfl)
      rw [hset] at hsub
      exact (Finset.eq_of_subset_of_card_le hsub (by omega)).symm
  · rintro ⟨hsubject, hle⟩
    rw [hsubject] at hsub hlen hcount
    refine ⟨⟨us, hus, hn, ?_⟩, hcount hle⟩
    refine Finset.eq_of_subset_of_card_le hsub ?_
    rw [List.toFinset_card_of_nodup hn, hlen, Nat.min_eq_right hle]

/-- **What a response reports as affected**: the applications it is about, a thousand of them at most; and these are
exactly the applications with a record in the scope when a single application has a record, and when the applications
of a range are a thousand at most. -/
theorem affected_reported (hboard : run.boardEmail.isEmpty = false)
    (h : breachResponse run args db = (.ok report, db')) :
    ReportsAffected args db.database.auditRecords report db'.outbox ∧
      (CountsAffected args db.database.auditRecords report db'.outbox ↔
        args.subject db.database.auditRecords = args.affected db.database.auditRecords ∧
          (args.affected db.database.auditRecords).card ≤ 1000) :=
  ⟨reportsAffected_of_ok hboard h, countsAffected_iff hboard h⟩

end

namespace BreachSample

/-- Two applications without a record. -/
def silent : BreachDb := ⟨⟨[], [], [], [Sample.uuid 1, Sample.uuid 2]⟩, []⟩

/-- Nothing goes wrong. -/
def quiet : BreachRun where
  breachDetectedAt := WipeSample.midnight 2
  call := call
  commit := .done
  freeze := .ok 0
  lookup := .ok ()
  distinct := .dedup
  boardEmail := "board".toList
  boardNow := WipeSample.midnight 2
  boardId := Sample.uuid 1
  board := .done
  reportId := Sample.uuid 1

end BreachSample

/-- The response to the application of the first sample record. -/
theorem affected_reported_sample :
    ∃ report db', breachResponse BreachSample.quiet BreachSample.args BreachSample.db = (.ok report, db') ∧
      ReportsAffected BreachSample.args BreachSample.db.database.auditRecords report db'.outbox := by
  have hp : returned (breakGlassProcedure BreachSample.quiet.call BreachSample.args BreachSample.db) = true := by
    decide
  obtain ⟨⟨row, db₁⟩, hp⟩ := returned_iff.mp hp
  obtain ⟨report, db', h⟩ := breachResponse_completes hp rfl rfl rfl rfl
  exact ⟨report, db', h, (affected_reported rfl h).1⟩

/-- An application without a record is reported. -/
theorem not_countsAffected :
    ¬ ∀ (run : BreachRun) (args : BreachArgs) (db : BreachDb) (report : BreachReport) (db' : BreachDb),
      run.boardEmail.isEmpty = false → breachResponse run args db = (.ok report, db') →
        CountsAffected args db.database.auditRecords report db'.outbox := by
  intro h
  have hp : returned (breakGlassProcedure BreachSample.quiet.call BreachSample.args BreachSample.silent) = true := by
    decide
  obtain ⟨⟨row, db₁⟩, hp⟩ := returned_iff.mp hp
  obtain ⟨report, db', hresponse⟩ := breachResponse_completes hp rfl rfl rfl rfl
  have hcounts := h _ _ _ report db' rfl hresponse
  obtain ⟨hsubject, -⟩ := (countsAffected_iff rfl hresponse).mp hcounts
  have hmem : Sample.uuid 1 ∈ BreachSample.args.affected BreachSample.silent.database.auditRecords := by
    rw [← hsubject, BreachArgs.subject_of_some rfl (Uuid.parse_str (Sample.uuid 1))]
    exact Finset.mem_singleton_self _
  exact absurd hmem List.not_mem_nil

end ComplianceLoop
