import ComplianceLoop.Db.BreakGlass

/-!
# `dpdp/breach_response.py`

`breachResponse` is the chain of steps of a breach response, each in a transaction of its own: the stored procedure, the
freeze of the queued tasks, the lookup of the affected applications, the notification of the Board, the report. Each of
them can raise. `breachResponse_ok` says what a call that returns has done and reports.
-/

set_option autoImplicit false

namespace ComplianceLoop

open PyLib

/-- `BreachScope`. -/
structure BreachScope where
  applicationIds : List Text
  timeRangeStart : Option DateTime
  timeRangeEnd : Option DateTime
  estimatedRecordsAffected : Nat
  dataCategoriesAffected : List Text
  breachDetectedAt : DateTime
  deriving DecidableEq

/-- `BreachReport`. -/
structure BreachReport where
  reportId : Text
  generatedAt : DateTime
  breachScope : BreachScope
  recordsFlagged : Nat
  notificationsQueued : Nat
  retroEvalJobsFrozen : Nat
  dataCategories : List Text
  recommendedActions : List Text
  severity : Text
  deriving DecidableEq

/-- The arguments of `breach_response`. -/
structure BreachArgs where
  applicationId : Option Text
  timeRangeStart : Option DateTime
  timeRangeEnd : Option DateTime
  severity : Text

/-- What surrounds a call: the clocks, the ids it draws, how far its transactions get, what the freeze of the queued
tasks returns or is interrupted with, the order of the lookup, and `DPDP_BOARD_NOTIFICATION_EMAIL`. -/
structure BreachRun where
  breachDetectedAt : DateTime
  call : BreachCall
  commit : Attempt
  freeze : Except PyExc Nat
  lookup : Except PyExc Unit
  distinct : Distinct
  boardEmail : Text
  boardNow : DateTime
  boardId : Uuid
  board : Attempt
  reportId : Uuid

/-- The SELECT of `_call_break_glass_procedure`: the two counts that it reads, and the tables when it is committed. -/
def breakGlassProcedure (call : BreachCall) (args : BreachArgs) (db : BreachDb) :
    Except PyExc (BreakGlassRow × BreachDb) :=
  match args.applicationId with
  | some applicationId =>
    match Uuid.parse applicationId with
    | none => raise .databaseError "invalid UUID".toList
    | some u => breakGlass call u db
  | none =>
    match args.timeRangeStart, args.timeRangeEnd with
    | some start, some stop =>
      (breakGlassRange call start stop db).map fun r => (⟨r.1.recordsFlagged, r.1.notificationsQueued⟩, r.2)
    | _, _ => raise .databaseError "invalid time range".toList

/-- `_call_break_glass_procedure`: what it returns or raises, and the tables afterwards. -/
def callBreakGlassProcedure (run : BreachRun) (args : BreachArgs) (db : BreachDb) :
    Except PyExc BreakGlassRow × BreachDb :=
  match breakGlassProcedure run.call args db with
  | .error e => (.error e, db)
  | .ok (row, db') =>
    let committed := run.commit.run .databaseError db db'
    (committed.1.map fun _ => row, committed.2)

/-- `_get_affected_application_ids`. -/
def getAffectedApplicationIds (run : BreachRun) (args : BreachArgs) (db : BreachDb) : Except PyExc (List Text) :=
  match args.applicationId.filter fun t => !t.isEmpty with
  | some applicationId => .ok [applicationId]
  | none =>
    match args.timeRangeStart, args.timeRangeEnd with
    | some start, some stop =>
      run.lookup.map fun _ =>
        ((affectedApplications run.distinct start stop db.database.auditRecords).take 1000).map Uuid.str
    | _, _ => raise .databaseError "invalid time range".toList

/-- `_assess_data_categories`. -/
def assessDataCategories (severity : Text) : List Text :=
  ["Application identifiers".toList, "Loan application details".toList, "Decision outcomes".toList] ++
    (if severity = "HIGH".toList ∨ severity = "CRITICAL".toList then
      ["Encrypted personal data payload (AES-256-GCM)".toList, "PAN HMAC (not plaintext — low risk)".toList,
        "Income and financial details".toList]
    else []) ++
    if severity = "CRITICAL".toList then ["Document metadata".toList, "KYC status information".toList] else []

/-- `_get_recommended_actions`. -/
def getRecommendedActions (severity : Text) : List Text :=
  ["Immediately review breach scope using audit_records.breach_flag query".toList,
    "Notify affected applicants via notification_outbox (automated — verify delivery)".toList,
    "Assess whether AES encryption key (AES_KEY) needs rotation".toList,
    "Review access logs for unauthorized database access".toList] ++
    (if severity = "HIGH".toList ∨ severity = "CRITICAL".toList then
      ["MANDATORY: Notify Data Protection Board within 72 hours (DPDP Act S.8)".toList,
        "Engage legal counsel immediately".toList,
        "Rotate SERVER_HMAC_KEY and AES_KEY using scripts/rotate_secrets.sh".toList,
        "Consider suspending new application intake during investigation".toList]
    else []) ++
    if severity = "CRITICAL".toList then
      ["CRITICAL: Consider notifying law enforcement if fraud is suspected".toList,
        "Preserve all server logs for forensic investigation".toList,
        "Do not alter or delete any database records until legal review".toList]
    else []

/-- The notification of the Board. -/
def boardNotification (run : BreachRun) (recordsFlagged : Nat) (affectedIds : List Text) (severity : Text) :
    NotificationOutbox where
  id := run.boardId
  notificationType := .breachAlert
  channel := .email
  recipientApplicationId := none
  recipientEmail := some run.boardEmail
  payload :=
    [("breach_detected_at".toList, .str run.breachDetectedAt.isoformat),
      ("records_flagged".toList, .int recordsFlagged),
      ("affected_applications_count".toList, .int affectedIds.length), ("severity".toList, .str severity),
      ("data_fiduciary".toList, .str "ComplianceLoop NBFC".toList),
      ("message".toList, .str ("A personal data breach has been detected affecting ".toList ++
        (toString recordsFlagged).toList ++ " records. Severity: ".toList ++ severity ++ ". ".toList ++
        "Formal notification to follow within 72 hours per DPDP Act Section 8.".toList))]
  status := .pending
  retryCount := 0
  maxRetries := 3
  nextRetryAt := none
  sentAt := none
  failureReason := none
  createdAt := run.boardNow.instant
  isDemo := false

/-- `_queue_board_notification`: whether it returns, and the tables afterwards. -/
def queueBoardNotification (run : BreachRun) (recordsFlagged : Nat) (affectedIds : List Text) (severity : Text)
    (db : BreachDb) : Except PyExc Unit × BreachDb :=
  if run.boardEmail.isEmpty then (.ok (), db)
  else
    run.board.run .databaseError db
      { db with outbox := db.outbox ++ [boardNotification run recordsFlagged affectedIds severity] }

/-- The report of a call. -/
def breachReport (run : BreachRun) (args : BreachArgs) (row : BreakGlassRow) (frozen : Nat) (affectedIds : List Text) :
    BreachReport where
  reportId := run.reportId.str
  generatedAt := run.breachDetectedAt
  breachScope :=
    { applicationIds := affectedIds
      timeRangeStart := args.timeRangeStart
      timeRangeEnd := args.timeRangeEnd
      estimatedRecordsAffected := row.recordsFlagged
      dataCategoriesAffected := assessDataCategories args.severity
      breachDetectedAt := run.breachDetectedAt }
  recordsFlagged := row.recordsFlagged
  notificationsQueued := row.notificationsQueued
  retroEvalJobsFrozen := frozen
  dataCategories := assessDataCategories args.severity
  recommendedActions := getRecommendedActions args.severity
  severity := args.severity

/-- `breach_response`: what it returns or raises, and the tables afterwards. -/
def breachResponse (run : BreachRun) (args : BreachArgs) (db : BreachDb) : Except PyExc BreachReport × BreachDb :=
  if args.applicationId.isNone && (args.timeRangeStart.isNone || args.timeRangeEnd.isNone) then
    (raise .valueError
      "Must provide either application_id or both time_range_start and time_range_end.".toList, db)
  else
    match callBreakGlassProcedure run args db with
    | (.error e, db) => (.error e, db)
    | (.ok row, db) =>
      match run.freeze with
      | .error e => (.error e, db)
      | .ok frozen =>
        match getAffectedApplicationIds run args db with
        | .error e => (.error e, db)
        | .ok affectedIds =>
          match queueBoardNotification run row.recordsFlagged affectedIds args.severity db with
          | (.error e, db) => (.error e, db)
          | (.ok (), db) => (.ok (breachReport run args row frozen affectedIds), db)

/-! ## A call that returns -/

section

variable {run : BreachRun} {args : BreachArgs} {db db' : BreachDb} {row : BreakGlassRow} {report : BreachReport}

/-- A procedure that returns is that of an application or that of a range. -/
theorem breakGlassProcedure_cases {call : BreachCall} (h : breakGlassProcedure call args db = .ok (row, db')) :
    (∃ t u, args.applicationId = some t ∧ Uuid.parse t = some u ∧ breakGlass call u db = .ok (row, db')) ∨
      args.applicationId = none ∧ ∃ start stop, args.timeRangeStart = some start ∧ args.timeRangeEnd = some stop ∧
        ∃ counts, breakGlassRange call start stop db = .ok (counts, db') ∧
          row = ⟨counts.recordsFlagged, counts.notificationsQueued⟩ := by
  unfold breakGlassProcedure at h
  split at h
  · rename_i t ha
    split at h
    · cases h
    · rename_i u hu
      exact .inl ⟨t, u, ha, hu, h⟩
  · rename_i ha
    split at h
    · rename_i start stop hs he
      obtain ⟨⟨counts, db₁⟩, hrun, heq⟩ := map_eq_ok.mp h
      obtain ⟨rfl, rfl⟩ := Prod.mk.inj heq
      exact .inr ⟨ha, start, stop, hs, he, counts, hrun, rfl⟩
    · cases h

theorem callBreakGlassProcedure_ok (h : callBreakGlassProcedure run args db = (.ok row, db')) :
    breakGlassProcedure run.call args db = .ok (row, db') := by
  unfold callBreakGlassProcedure at h
  split at h
  · cases h
  · rename_i row' db₁ hp
    cases hc : run.commit with
    | done =>
      rw [hc] at h
      obtain ⟨hrow, rfl⟩ := Prod.mk.inj h
      cases hrow
      exact hp
    | refused =>
      rw [hc] at h
      cases h
    | unacknowledged =>
      rw [hc] at h
      cases h

/-- The lookup of a single application does not ask the database. -/
theorem getAffectedApplicationIds_some {t : Text} {u : Uuid} (ha : args.applicationId = some t)
    (hu : Uuid.parse t = some u) : getAffectedApplicationIds run args db = .ok [t] := by
  unfold getAffectedApplicationIds
  cases t with
  | nil => cases hu
  | cons c t => rw [ha]; rfl

theorem getAffectedApplicationIds_range {start stop : DateTime} (ha : args.applicationId = none)
    (hs : args.timeRangeStart = some start) (he : args.timeRangeEnd = some stop) :
    getAffectedApplicationIds run args db = run.lookup.map fun _ =>
      ((affectedApplications run.distinct start stop db.database.auditRecords).take 1000).map Uuid.str := by
  rw [getAffectedApplicationIds, ha, hs, he]
  rfl

/-- The Board has its notification if its address is configured. -/
theorem queueBoardNotification_ok {count : Nat} {ids : List Text} {severity : Text}
    (h : queueBoardNotification run count ids severity db = (.ok (), db')) :
    db' = if run.boardEmail.isEmpty then db
      else { db with outbox := db.outbox ++ [boardNotification run count ids severity] } := by
  unfold queueBoardNotification at h
  split
  · rename_i hempty
    rw [if_pos hempty] at h
    exact (Prod.mk.inj h).2.symm
  · rename_i hempty
    rw [if_neg hempty] at h
    cases hb : run.board with
    | done =>
      rw [hb] at h
      exact (Prod.mk.inj h).2.symm
    | refused =>
      rw [hb] at h
      cases h
    | unacknowledged =>
      rw [hb] at h
      cases h

/-- The steps of a call that returns. -/
theorem breachResponse_steps (h : breachResponse run args db = (.ok report, db')) :
    ∃ row db₁ frozen affectedIds, breakGlassProcedure run.call args db = .ok (row, db₁) ∧ run.freeze = .ok frozen ∧
      getAffectedApplicationIds run args db₁ = .ok affectedIds ∧
      queueBoardNotification run row.recordsFlagged affectedIds args.severity db₁ = (.ok (), db') ∧
      report = breachReport run args row frozen affectedIds := by
  unfold breachResponse at h
  split at h
  · cases h
  split at h
  · cases h
  rename_i row db₁ hcall
  split at h
  · cases h
  rename_i frozen hfreeze
  split at h
  · cases h
  rename_i affectedIds hlookup
  split at h
  · cases h
  rename_i db₂ hboard
  obtain ⟨hreport, rfl⟩ := Prod.mk.inj h
  exact ⟨row, db₁, frozen, affectedIds, callBreakGlassProcedure_ok hcall, hfreeze, hlookup, hboard,
    (Except.ok.inj hreport).symm⟩

/-- **What a call that returns has done**: the procedure is committed, the Board has its notification if its address is
configured, and the report has the counts of the procedure. -/
theorem breachResponse_ok (h : breachResponse run args db = (.ok report, db')) :
    ∃ row db₁ frozen affectedIds, breakGlassProcedure run.call args db = .ok (row, db₁) ∧
      report = breachReport run args row frozen affectedIds ∧
      db' = if run.boardEmail.isEmpty then db₁
        else { db₁ with
          outbox := db₁.outbox ++ [boardNotification run row.recordsFlagged affectedIds args.severity] } := by
  obtain ⟨row, db₁, frozen, affectedIds, hprocedure, -, -, hboard, hreport⟩ := breachResponse_steps h
  exact ⟨row, db₁, frozen, affectedIds, hprocedure, hreport, queueBoardNotification_ok hboard⟩

end

end ComplianceLoop
