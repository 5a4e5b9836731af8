import ComplianceLoop.Db.Session
import ComplianceLoop.Dpdp.ConsentWithdrawal
import ComplianceLoop.Dpdp.DataSubjectHandler
import ComplianceLoop.Dpdp.RetentionEnforcer
import ComplianceLoop.Transition.Queries

/-!
# `dpdp/data_subject_handler.py`: access requests

`handleAccessRequest` returns what is held on an applicant: the applications of the applicant, the newest first, each
with its decisions. It reads no personal column and no consent, so an erasure shows in the flags of its answer only, and
a withdrawal of consent does not show at all (`access_after_request`). Applications, decisions, erasures, withdrawals
and nightly wipes may come in any order: what an answer has listed, every later one lists, and in the same order
(`access_kept`). The order is that of `submitted_at` and `run_number`; where two of them are the same, each request may
get them in another order.

`float` is the float of a number with so many decimals.
-/

set_option autoImplicit false

namespace ComplianceLoop

open PyLib Transition

/-- A row of `applications`, with the columns that an access request returns; the amount counts hundredths. -/
structure ApplicationRow extends Application where
  submittedAt : DateTime
  loanPurpose : Text
  loanAmountRequested : Int
  loanTenureMonths : Int
  dpdpConsentVersion : Text
  dpdpConsentAt : DateTime
  deriving DecidableEq

/-- A row of `decisions`, with the columns that an access request returns; the confidence counts ten-thousandths. -/
structure RunDecision where
  applicationId : Uuid
  guidelineVersionId : Uuid
  runNumber : Int
  isRetroEval : Bool
  outcome : DecisionOutcome
  confidence : Int
  createdAt : DateTime
  deriving DecidableEq

/-- The tables. -/
structure HeldData where
  applications : List ApplicationRow
  decisions : List RunDecision
  events : List RetentionEvent

/-- An entry of `decisions` in the answer. -/
structure DecisionSummary (F : Type) where
  runNumber : Int
  outcome : Text
  confidence : F
  decidedAt : Text
  isRetroEval : Bool
  guidelineVersionId : Text
  deriving DecidableEq

/-- An entry of `data_held`. -/
structure ApplicationSummary (F : Type) where
  applicationId : Text
  submittedAt : Text
  loanPurpose : Text
  loanAmountRequested : F
  loanTenureMonths : Int
  dpdpConsentVersion : Text
  dpdpConsentAt : Text
  dataRetentionExpiresAt : Text
  retentionWiped : Bool
  panIdentifier : Text
  decisions : List (DecisionSummary F)
  deriving DecidableEq

/-- `DataAccessResponse`. -/
structure DataAccessResponse (F : Type) where
  applicantId : Text
  requestId : Text
  generatedAt : DateTime
  applicationsFound : Nat
  dataHeld : List (ApplicationSummary F)
  dataCategories : List Text
  retentionInfo : List (Text × Text)
  note : Text
  deriving DecidableEq

/-- `note`. -/
def accessNote : Text :=
  ("This response contains non-sensitive identifiers and decision summaries. " ++
    "Encrypted personal data requires a formal written request processed by " ++
    "the compliance team. Contact your NBFC relationship manager.").toList

/-- `data_categories`. -/
def dataCategories : List Text :=
  ["Loan application identifiers and metadata".toList, "Loan purpose and amount".toList,
    "Compliance decision outcomes".toList, "Consent records".toList, "Data retention schedule".toList]

/-- `retention_info`. -/
def retentionInfo : List (Text × Text) :=
  [("policy".toList, "Personal data retained for configured retention period after final decision".toList),
    ("audit_records_retention".toList, "Audit hashes and HMACs retained indefinitely for non-repudiation".toList),
    ("contact".toList, "Raise a formal access request with your NBFC for encrypted payload review".toList)]

/-- A call of `handle_access_request`, with the id it draws, the time it reads, and the order in which its queries
return rows with the same key. -/
structure AccessRequest where
  applicantId : Text
  requestingPanHmac : Text
  requestId : Uuid
  now : DateTime
  applicationTies : TieOrder ApplicationRow
  decisionTies : TieOrder RunDecision

/-- The WHERE clause. -/
def AccessRequest.selects (req : AccessRequest) (applicantId : Uuid) (a : ApplicationRow) : Bool :=
  a.applicantId = applicantId && a.panHmac = req.requestingPanHmac && !a.isDemo

/-- The key of `ORDER BY submitted_at DESC`. -/
def ApplicationRow.newest (a : ApplicationRow) : Int := -a.submittedAt.instant

/-- The decisions of an application, in the order of their runs. -/
def decisionsOf (ties : TieOrder RunDecision) (decisions : List RunDecision) (applicationId : Uuid) :
    List RunDecision :=
  query (fun d => d.applicationId = applicationId) RunDecision.runNumber ties decisions

section

variable {F : Type} (float : Nat → Int → F)

/-- The entry of a decision. -/
def RunDecision.summary (d : RunDecision) : DecisionSummary F where
  runNumber := d.runNumber
  outcome := d.outcome.value
  confidence := float 4 d.confidence
  decidedAt := d.createdAt.isoformat
  isRetroEval := d.isRetroEval
  guidelineVersionId := d.guidelineVersionId.str

/-- The entry of an application; of the HMAC it has the last four characters. -/
def ApplicationRow.summary (ties : TieOrder RunDecision) (decisions : List RunDecision) (a : ApplicationRow) :
    ApplicationSummary F where
  applicationId := a.id.str
  submittedAt := a.submittedAt.isoformat
  loanPurpose := a.loanPurpose
  loanAmountRequested := float 2 a.loanAmountRequested
  loanTenureMonths := a.loanTenureMonths
  dpdpConsentVersion := a.dpdpConsentVersion
  dpdpConsentAt := a.dpdpConsentAt.isoformat
  dataRetentionExpiresAt := a.dataRetentionExpiresAt.isoformat
  retentionWiped := a.retentionWiped
  panIdentifier := "****".toList ++ a.panHmac.drop (a.panHmac.length - 4)
  decisions := (decisionsOf ties decisions a.id).map (·.summary float)

/-- `handle_access_request`. -/
def handleAccessRequest (req : AccessRequest) (db : HeldData) : Except PyExc (DataAccessResponse F) :=
  match Uuid.parse req.applicantId with
  | none => raise .valueError "badly formed hexadecimal UUID string".toList
  | some applicantId =>
    let applications := query (req.selects applicantId) ApplicationRow.newest req.applicationTies db.applications
    if applications.isEmpty then
      raise .valueError ("No applications found for applicant_id '".toList ++ req.applicantId ++
        "' with the provided PAN. Identity could not be verified.".toList)
    else
      .ok
        { applicantId := req.applicantId
          requestId := req.requestId.str
          generatedAt := req.now
          applicationsFound := applications.length
          dataHeld := applications.map (·.summary float req.decisionTies db.decisions)
          dataCategories := dataCategories
          retentionInfo := retentionInfo
          note := accessNote }

end

/-! ## The statements that write the rows -/

namespace HeldData

/-- The columns of the applications that the other statements read and write. -/
def base (db : HeldData) : RetentionDb := ⟨db.applications.map ApplicationRow.toApplication, db.events⟩

/-- These columns and the events are written; the other columns stay. -/
def writeBase (db : HeldData) (r : RetentionDb) : HeldData :=
  { db with
    applications := db.applications.zipWith (fun row a => { row with toApplication := a }) r.applications
    events := r.events }

/-- After an erasure request. -/
def erased (db : HeldData) (req : ErasureRequest) : HeldData := db.writeBase (handleErasureRequest req db.base).2

/-- After a withdrawal of consent. -/
def withdrawn (db : HeldData) (req : WithdrawalRequest) : HeldData :=
  db.writeBase ⟨(handleConsentWithdrawal req db.base.applications).2, db.events⟩

/-- After a batch of the nightly wipe. -/
def retained (db : HeldData) (task : WipeTask) (k : Nat) : HeldData := db.writeBase (task.wipeBatch k db.base).db

end HeldData

/-! ## What the statements leave -/

/-- The row without what it does not show, and without the flag. -/
def ApplicationRow.shown (a : ApplicationRow) : ApplicationRow :=
  { a with
    collateralValue := none
    cityTier := none
    payloadEncrypted := none
    dpdpConsentGiven := false
    retentionWiped := false
    retentionWipedAt := none }

/-- The row shows the same, and a wiped row stays wiped. -/
structure ShowsSame (a b : ApplicationRow) : Prop where
  shown : b.shown = a.shown
  wiped : a.retentionWiped = true → b.retentionWiped = true

namespace ShowsSame

variable {a b c : ApplicationRow}

theorem refl (a : ApplicationRow) : ShowsSame a a := ⟨rfl, id⟩

theorem trans (h : ShowsSame a b) (h' : ShowsSame b c) : ShowsSame a c :=
  ⟨h'.shown.trans h.shown, fun ha => h'.wiped (h.wiped ha)⟩

theorem selects (h : ShowsSame a b) (req : AccessRequest) (applicantId : Uuid) :
    req.selects applicantId b = req.selects applicantId a := by
  show req.selects applicantId b.shown = req.selects applicantId a.shown
  rw [h.shown]

theorem newest (h : ShowsSame a b) : b.newest = a.newest := by
  show b.shown.newest = a.shown.newest
  rw [h.shown]

theorem id_eq (h : ShowsSame a b) : b.id = a.id := by
  show b.shown.id = a.shown.id
  rw [h.shown]

end ShowsSame

/-- A column is written. -/
def ApplicationRow.over (g : Application → Application) (row : ApplicationRow) : ApplicationRow :=
  { row with toApplication := g row.toApplication }

theorem showsSame_wipe (now : DateTime) (row : ApplicationRow) : ShowsSame row (row.over (Application.wipe now)) :=
  ⟨rfl, fun _ => rfl⟩

theorem HeldData.applications_writeBase {db : HeldData} {r : RetentionDb} {g : Application → Application}
    (h : r.applications = db.base.applications.map g) :
    (db.writeBase r).applications = db.applications.map (ApplicationRow.over g) := by
  have hzip : ∀ rows : List ApplicationRow,
      rows.zipWith (fun row a => { row with toApplication := a }) ((rows.map ApplicationRow.toApplication).map g) =
        rows.map (ApplicationRow.over g) := by
    intro rows
    induction rows with
    | nil => rfl
    | cons row rows ih => exact congrArg (row.over g :: ·) ih
  show db.applications.zipWith _ r.applications = _
  rw [h]
  exact hzip db.applications

/-- The rows of these ids are wiped. -/
def wipeIds (now : DateTime) (ids : List Uuid) (a : Application) : Application :=
  if ids.contains a.id then a.wipe now else a

theorem showsSame_wipeIds (now : DateTime) (ids : List Uuid) (row : ApplicationRow) :
    ShowsSame row (row.over (wipeIds now ids)) := by
  by_cases h : ids.contains row.id = true
  · have hover : row.over (wipeIds now ids) = row.over (Application.wipe now) := by
      rw [ApplicationRow.over, wipeIds, if_pos h, ApplicationRow.over]
    rw [hover]
    exact showsSame_wipe now row
  · have hover : row.over (wipeIds now ids) = row := by
      rw [ApplicationRow.over, wipeIds, if_neg h]
    rw [hover]
    exact .refl row

/-- The unwiped applications that an erasure request is about. -/
def ErasureRequest.unwiped (req : ErasureRequest) (applicantId : Uuid) (db : RetentionDb) : List Uuid :=
  ((db.applications.filter (req.selects applicantId)).filter (!·.retentionWiped)).map Application.id

theorem HeldData.applications_erased (db : HeldData) {req : ErasureRequest} {applicantId : Uuid}
    (hu : Uuid.parse req.applicantId = some applicantId) :
    (db.erased req).applications =
      db.applications.map (ApplicationRow.over (wipeIds req.now (req.unwiped applicantId db.base))) :=
  applications_writeBase (by
    rw [handleErasureRequest_snd hu]
    rfl)

theorem HeldData.erased_of_none (db : HeldData) {req : ErasureRequest} (hu : Uuid.parse req.applicantId = none) :
    (db.erased req).applications = db.applications := by
  have hid : (handleErasureRequest req db.base).2.applications = db.base.applications.map id := by
    rw [handleErasureRequest, hu, List.map_id]
  rw [HeldData.erased, applications_writeBase hid]
  exact List.map_id _

/-- The applications that a withdrawal is about are marked. -/
def WithdrawalRequest.mark (req : WithdrawalRequest) (applicantId : Uuid) (a : Application) : Application :=
  if req.selects applicantId a then { a with dpdpConsentGiven := false } else a

theorem showsSame_mark (req : WithdrawalRequest) (applicantId : Uuid) (row : ApplicationRow) :
    (row.over (req.mark applicantId)).retentionWiped = row.retentionWiped ∧
      ShowsSame row (row.over (req.mark applicantId)) := by
  rw [ApplicationRow.over, WithdrawalRequest.mark]
  by_cases h : req.selects applicantId row.toApplication = true
  · rw [if_pos h]
    exact ⟨rfl, rfl, id⟩
  · rw [if_neg h]
    exact ⟨rfl, .refl row⟩

theorem HeldData.applications_withdrawn (db : HeldData) {req : WithdrawalRequest} {applicantId : Uuid}
    (hu : Uuid.parse req.applicantId = some applicantId) :
    (db.withdrawn req).applications = db.applications.map (ApplicationRow.over (req.mark applicantId)) := by
  refine applications_writeBase ?_
  rw [handleConsentWithdrawal, hu]
  by_cases hnone : (db.base.applications.filter (req.selects applicantId)).isEmpty = true
  · have hid : db.base.applications.map (req.mark applicantId) = db.base.applications.map id :=
      List.map_congr_left fun a ha => if_neg (List.filter_eq_nil_iff.mp (List.isEmpty_iff.mp hnone) a ha)
    simp only [if_pos hnone]
    rw [hid, List.map_id]
  · simp only [if_neg hnone]
    rfl

theorem HeldData.withdrawn_of_none (db : HeldData) {req : WithdrawalRequest} (hu : Uuid.parse req.applicantId = none) :
    (db.withdrawn req).applications = db.applications := by
  have hid : (handleConsentWithdrawal req db.base.applications).2 = db.base.applications.map id := by
    rw [handleConsentWithdrawal, hu, List.map_id]
  rw [HeldData.withdrawn, applications_writeBase hid]
  exact List.map_id _

theorem HeldData.applications_retained (db : HeldData) (task : WipeTask) (k : Nat) :
    (db.retained task k).applications =
      db.applications.map (ApplicationRow.over (wipeIds (task.clock k) (task.wipedIds (task.selected k db.base)))) :=
  applications_writeBase (by
    rw [WipeTask.wipeBatch_eq]
    rfl)

/-! ## Answers -/

section

variable {F : Type} {float : Nat → Int → F}

/-- What an entry says after the row has been written. -/
theorem ShowsSame.summary {a b : ApplicationRow} (h : ShowsSame a b) (ties : TieOrder RunDecision)
    (decisions : List RunDecision) :
    b.summary float ties decisions =
      { a.summary float ties decisions with retentionWiped := b.retentionWiped } := by
  have hshown : ∀ a : ApplicationRow, a.summary float ties decisions =
      { a.shown.summary float ties decisions with retentionWiped := a.retentionWiped } := fun _ => rfl
  rw [hshown b, h.shown, hshown a]

variable (float) in
/-- The entries of an answer. -/
def AccessRequest.entries (req : AccessRequest) (applicantId : Uuid) (db : HeldData) : List (ApplicationSummary F) :=
  (query (req.selects applicantId) ApplicationRow.newest req.applicationTies db.applications).map
    (·.summary float req.decisionTies db.decisions)

/-- The answer with these entries. -/
def AccessRequest.answer (req : AccessRequest) (entries : List (ApplicationSummary F)) :
    Except PyExc (DataAccessResponse F) :=
  if entries.isEmpty then
    raise .valueError ("No applications found for applicant_id '".toList ++ req.applicantId ++
      "' with the provided PAN. Identity could not be verified.".toList)
  else
    .ok
      { applicantId := req.applicantId
        requestId := req.requestId.str
        generatedAt := req.now
        applicationsFound := entries.length
        dataHeld := entries
        dataCategories := dataCategories
        retentionInfo := retentionInfo
        note := accessNote }

theorem handleAccessRequest_eq_answer {req : AccessRequest} {u : Uuid} (hu : Uuid.parse req.applicantId = some u)
    (db : HeldData) : handleAccessRequest float req db = req.answer (req.entries float u db) := by
  rw [handleAccessRequest, hu, AccessRequest.answer, AccessRequest.entries, List.isEmpty_map, List.length_map]

theorem AccessRequest.answer_map (req : AccessRequest) (entries : List (ApplicationSummary F))
    (f : ApplicationSummary F → ApplicationSummary F) :
    req.answer (entries.map f) = (req.answer entries).map fun r => { r with dataHeld := r.dataHeld.map f } := by
  rw [answer, answer, List.isEmpty_map, List.length_map]
  split <;> simp only [raise, Except.map]

/-- The request for the same applicant, with rows of the same key in another order. -/
def AccessRequest.again (req : AccessRequest) (applicationTies : TieOrder ApplicationRow)
    (decisionTies : TieOrder RunDecision) : AccessRequest :=
  { req with applicationTies := applicationTies, decisionTies := decisionTies }

/-- No two applications that the request selects were submitted at the same time, and no two decisions of one of them
have the same run number. -/
structure AccessRequest.Distinct (req : AccessRequest) (db : HeldData) : Prop where
  applications : ∀ u, Uuid.parse req.applicantId = some u →
    Untied (req.selects u) ApplicationRow.newest db.applications
  decisions : ∀ u, Uuid.parse req.applicantId = some u → ∀ a ∈ db.applications, req.selects u a = true →
    Untied (fun d : RunDecision => d.applicationId = a.id) RunDecision.runNumber db.decisions

/-- What an access request gets when rows have been written in columns that it does not read. -/
theorem handleAccessRequest_over {req : AccessRequest} {db db' : HeldData} {g : ApplicationRow → ApplicationRow}
    {f : ApplicationSummary F → ApplicationSummary F} (hdistinct : req.Distinct db)
    (hg : ∀ row, ShowsSame row (g row)) (hrows : db'.applications = db.applications.map g)
    (hdecisions : db'.decisions = db.decisions)
    (hf : ∀ u, Uuid.parse req.applicantId = some u → ∀ a ∈ db.applications, req.selects u a = true →
      (g a).summary float req.decisionTies db.decisions = f (a.summary float req.decisionTies db.decisions))
    (applicationTies : TieOrder ApplicationRow) (decisionTies : TieOrder RunDecision) :
    handleAccessRequest float (req.again applicationTies decisionTies) db' =
      (handleAccessRequest float req db).map fun r => { r with dataHeld := r.dataHeld.map f } := by
  cases hu : Uuid.parse req.applicantId with
  | none =>
    have hu' : Uuid.parse (req.again applicationTies decisionTies).applicantId = none := hu
    rw [handleAccessRequest, handleAccessRequest, hu, hu']
    rfl
  | some u =>
    have hquery : query (req.selects u) ApplicationRow.newest applicationTies db'.applications =
        (query (req.selects u) ApplicationRow.newest req.applicationTies db.applications).map g := by
      rw [hrows]
      exact query_map (hdistinct.applications u hu) (fun row => (hg row).selects req u) fun row => (hg row).newest
    have hentry : ∀ a ∈ db.applications, req.selects u a = true →
        (g a).summary float decisionTies db.decisions = f (a.summary float req.decisionTies db.decisions) := by
      intro a ha hsel
      have hid : (g a).id = a.id := (hg a).id_eq
      rw [← hf u hu a ha hsel, ApplicationRow.summary, ApplicationRow.summary, hid, decisionsOf, decisionsOf,
        (hdistinct.decisions u hu a ha hsel).query_eq decisionTies req.decisionTies]
    have hentries : (req.again applicationTies decisionTies).entries float u db' = (req.entries float u db).map f := by
      show (query (req.selects u) ApplicationRow.newest applicationTies db'.applications).map _ = _
      rw [hquery, hdecisions, AccessRequest.entries, List.map_map, List.map_map]
      refine List.map_congr_left fun a ha => ?_
      obtain ⟨ha, hsel⟩ := mem_query.mp ha
      exact hentry a ha hsel
    have hagain : Uuid.parse (req.again applicationTies decisionTies).applicantId = some u := hu
    rw [handleAccessRequest_eq_answer hu, ← AccessRequest.answer_map, ← hentries]
    exact handleAccessRequest_eq_answer hagain db'

/-- After the erasure, the selected rows are all wiped. -/
theorem retentionWiped_over {req : ErasureRequest} {db : HeldData} {u : Uuid} {a : ApplicationRow}
    (ha : a ∈ db.applications) (hsel : req.selects u a.toApplication = true) :
    (a.over (wipeIds req.now (req.unwiped u db.base))).retentionWiped = true := by
  by_cases hw : a.retentionWiped = true
  · exact (showsSame_wipeIds req.now _ a).wiped hw
  · have hmem : a.id ∈ req.unwiped u db.base := by
      refine List.mem_map.mpr ⟨a.toApplication, List.mem_filter.mpr ⟨List.mem_filter.mpr ⟨?_, hsel⟩, ?_⟩, rfl⟩
      · exact List.mem_map_of_mem ha
      · simpa using hw
    rw [ApplicationRow.over, wipeIds, List.contains_eq_mem, decide_eq_true hmem, if_pos rfl]
    rfl

variable (float) in
/-- **An access request after the erasure request of the same applicant gets the same answer but for the flags, which
are all set; and after a withdrawal of consent it gets the same answer.** -/
theorem access_after_request {req : AccessRequest} {db : HeldData} (hdistinct : req.Distinct db)
    (applicationTies : TieOrder ApplicationRow) (decisionTies : TieOrder RunDecision) :
    (∀ requestId now, handleAccessRequest float (req.again applicationTies decisionTies)
        (db.erased ⟨req.applicantId, req.requestingPanHmac, requestId, now⟩) =
          (handleAccessRequest float req db).map fun r =>
            { r with dataHeld := r.dataHeld.map fun a => { a with retentionWiped := true } }) ∧
      ∀ w, handleAccessRequest float (req.again applicationTies decisionTies) (db.withdrawn w) =
        handleAccessRequest float req db := by
  constructor
  · intro requestId now
    cases hu : Uuid.parse req.applicantId with
    | none =>
      have hu' : Uuid.parse (req.again applicationTies decisionTies).applicantId = none := hu
      rw [handleAccessRequest, handleAccessRequest, hu, hu']
      rfl
    | some u =>
      have hrows : (db.erased ⟨req.applicantId, req.requestingPanHmac, requestId, now⟩).applications = _ :=
        db.applications_erased hu
      refine handleAccessRequest_over hdistinct (showsSame_wipeIds now _) hrows rfl (fun u' hu' a ha hsel => ?_)
        applicationTies decisionTies
      obtain rfl : u = u' := Option.some.inj (hu.symm.trans hu')
      have hwiped : (a.over (wipeIds now
          (ErasureRequest.unwiped ⟨req.applicantId, req.requestingPanHmac, requestId, now⟩ u db.base))).retentionWiped =
            true := retentionWiped_over ha hsel
      rw [(showsSame_wipeIds now _ a).summary, hwiped]
  · intro w
    obtain ⟨g, hg, hrows⟩ : ∃ g : ApplicationRow → ApplicationRow,
        (∀ row, (g row).retentionWiped = row.retentionWiped ∧ ShowsSame row (g row)) ∧
          (db.withdrawn w).applications = db.applications.map g := by
      cases hu : Uuid.parse w.applicantId with
      | none => exact ⟨id, fun row => ⟨rfl, .refl row⟩, by rw [db.withdrawn_of_none hu, List.map_id]⟩
      | some u => exact ⟨_, showsSame_mark w u, db.applications_withdrawn hu⟩
    have hsame : ∀ a : ApplicationRow, (g a).summary float req.decisionTies db.decisions =
        a.summary float req.decisionTies db.decisions := by
      intro a
      rw [(hg a).2.summary, (hg a).1]
      rfl
    rw [handleAccessRequest_over (f := fun a => a) hdistinct (fun row => (hg row).2) hrows rfl
      fun _ _ a _ _ => hsame a]
    cases handleAccessRequest float req db with
    | error e => rfl
    | ok r =>
      show Except.ok { r with dataHeld := r.dataHeld.map fun a => a } = _
      rw [List.map_id']

end

namespace AccessSample

/-- The application of the first applicant. -/
def db : HeldData :=
  ⟨[⟨WipeSample.application 1, WipeSample.midnight 0, "personal".toList, 5000000, 12, "v1".toList,
    WipeSample.midnight 0⟩], [], []⟩

def request : AccessRequest := ⟨(Uuid.mk 1).str, [], ⟨7⟩, WipeSample.midnight 1, .table _, .table _⟩

end AccessSample

/-- The answer before the applicant asks for the erasure and withdraws the consent, and the answers after that. -/
theorem access_after_request_sample :
    handleAccessRequest (fun _ n => n) AccessSample.request
        (AccessSample.db.erased ⟨(Uuid.mk 1).str, [], ⟨8⟩, WipeSample.midnight 2⟩) =
      (handleAccessRequest (fun _ n => n) AccessSample.request AccessSample.db).map (fun r =>
        { r with dataHeld := r.dataHeld.map fun a => { a with retentionWiped := true } }) ∧
      handleAccessRequest (fun _ n => n) AccessSample.request
          (AccessSample.db.withdrawn ⟨(Uuid.mk 1).str, [], WipeSample.midnight 1⟩) =
        handleAccessRequest (fun _ n => n) AccessSample.request AccessSample.db := by
  have hdistinct : AccessSample.request.Distinct AccessSample.db :=
    ⟨fun _ _ => untied_singleton _, fun _ _ _ _ _ => List.nodup_nil⟩
  obtain ⟨herased, hwithdrawn⟩ := access_after_request (fun _ n => n) hdistinct (.table _) (.table _)
  exact ⟨herased _ _, hwithdrawn _⟩

/-! ## Runs -/

/-- The steps. -/
inductive AccessStep where
  /-- An application comes in. -/
  | submit (a : ApplicationRow)
  /-- A decision comes in. -/
  | decide (d : RunDecision)
  | erase (req : ErasureRequest)
  | withdraw (req : WithdrawalRequest)
  /-- A batch of the nightly wipe. -/
  | retain (task : WipeTask) (k : Nat)

/-- One step; `none` where the id of the row is there already. -/
def HeldData.step (db : HeldData) : AccessStep → Option HeldData
  | .submit a =>
    if a.id ∈ db.applications.map (·.id) then none else some { db with applications := db.applications ++ [a] }
  | .decide d => some { db with decisions := db.decisions ++ [d] }
  | .erase req => some (db.erased req)
  | .withdraw req => some (db.withdrawn req)
  | .retain task k => some (db.retained task k)

/-- What is held, as a system. -/
def accessSystem : System HeldData AccessStep := ⟨HeldData.step⟩

/-- Rows and decisions have come in, and the rows show the same. -/
structure HeldLater (db db' : HeldData) : Prop where
  applications : Grown ShowsSame db.applications db'.applications
  decisions : db.decisions.Sublist db'.decisions

theorem HeldLater.refl (db : HeldData) : HeldLater db db := ⟨.refl .refl _, .refl _⟩

/-- **What a step does to the applications**: one comes in, or each of them shows the same. -/
theorem HeldData.step_applications {db db' : HeldData} {l : AccessStep} (hs : accessSystem.step db l = some db') :
    (∃ a : ApplicationRow, a.id ∉ db.applications.map (·.id) ∧ db'.applications = db.applications ++ [a]) ∨
      ∃ g : ApplicationRow → ApplicationRow, (∀ row, ShowsSame row (g row)) ∧
        db'.applications = db.applications.map g := by
  have hsame : db.applications = db.applications.map id := (List.map_id _).symm
  cases l with
  | submit a =>
    simp only [accessSystem, HeldData.step] at hs
    split at hs
    · cases hs
    · rename_i hnew
      obtain rfl := Option.some.inj hs
      exact .inl ⟨a, hnew, rfl⟩
  | decide d =>
    obtain rfl := Option.some.inj hs
    exact .inr ⟨id, .refl, hsame⟩
  | erase req =>
    obtain rfl := Option.some.inj hs
    cases hu : Uuid.parse req.applicantId with
    | none => exact .inr ⟨id, .refl, (db.erased_of_none hu).trans hsame⟩
    | some u => exact .inr ⟨_, showsSame_wipeIds req.now _, db.applications_erased hu⟩
  | withdraw req =>
    obtain rfl := Option.some.inj hs
    cases hu : Uuid.parse req.applicantId with
    | none => exact .inr ⟨id, .refl, (db.withdrawn_of_none hu).trans hsame⟩
    | some u => exact .inr ⟨_, fun row => (showsSame_mark req u row).2, db.applications_withdrawn hu⟩
  | retain task k =>
    obtain rfl := Option.some.inj hs
    exact .inr ⟨_, showsSame_wipeIds _ _, db.applications_retained task k⟩

theorem HeldData.step_decisions {db db' : HeldData} {l : AccessStep} (hs : accessSystem.step db l = some db') :
    db.decisions.Sublist db'.decisions := by
  cases l with
  | submit a =>
    simp only [accessSystem, HeldData.step] at hs
    split at hs
    · cases hs
    · exact Option.some.inj hs ▸ .refl _
  | decide d => exact Option.some.inj hs ▸ List.sublist_append_left _ _
  | erase req => exact Option.some.inj hs ▸ .refl _
  | withdraw req => exact Option.some.inj hs ▸ .refl _
  | retain task k => exact Option.some.inj hs ▸ .refl _

/-- **One step.** -/
theorem HeldLater.step {db db' db'' : HeldData} {l : AccessStep} (h : HeldLater db db')
    (hs : accessSystem.step db' l = some db'') : HeldLater db db'' := by
  refine ⟨h.applications.trans (fun _ _ _ => ShowsSame.trans) ?_, h.decisions.trans (HeldData.step_decisions hs)⟩
  rcases HeldData.step_applications hs with ⟨a, -, hrows⟩ | ⟨g, hg, hrows⟩
  · rw [hrows]
    exact .of_sublist .refl (List.sublist_append_left _ _)
  · rw [hrows]
    exact .of_map hg _

section

variable {F : Type} {float : Nat → Int → F}

/-- A later entry for the same application: it may be wiped by now, and there may be more decisions. -/
structure Continues (R : List (DecisionSummary F) → List (DecisionSummary F) → Prop) (a b : ApplicationSummary F) :
    Prop where
  same : { b with retentionWiped := a.retentionWiped, decisions := a.decisions } = a
  wiped : a.retentionWiped = true → b.retentionWiped = true
  decisions : R a.decisions b.decisions

theorem continues_summary {R : List (DecisionSummary F) → List (DecisionSummary F) → Prop} {a b : ApplicationRow}
    (h : ShowsSame a b) {ties ties' : TieOrder RunDecision} {decisions decisions' : List RunDecision}
    (hR : R ((decisionsOf ties decisions a.id).map (·.summary float))
      ((decisionsOf ties' decisions' a.id).map (·.summary float))) :
    Continues R (a.summary float ties decisions) (b.summary float ties' decisions') := by
  rw [h.summary]
  exact ⟨rfl, h.wiped, hR⟩

variable (float) in
/-- The entries of a later request: those that were there are still there, and in order where no keys are the same. -/
theorem entries_kept {db db' : HeldData} (hlater : HeldLater db db') {req req' : AccessRequest} {u : Uuid}
    (hu : Uuid.parse req'.applicantId = some u) (hpan : req'.requestingPanHmac = req.requestingPanHmac) :
    (∃ l, l.Subperm (req'.entries float u db') ∧
      List.Forall₂ (Continues List.Subperm) (req.entries float u db) l) ∧
      (req'.Distinct db' → ∃ l, l.Sublist (req'.entries float u db') ∧
        List.Forall₂ (Continues List.Sublist) (req.entries float u db) l) := by
  have hsel : req'.selects u = req.selects u := by
    funext a
    rw [AccessRequest.selects, AccessRequest.selects, hpan]
  obtain ⟨g, hg, hsubperm, hsublist⟩ := hlater.applications.query req.applicationTies req'.applicationTies
    (fun _ _ hab => hab.selects req u) fun _ _ hab => hab.newest
  have hentries : ∀ {R : List (DecisionSummary F) → List (DecisionSummary F) → Prop},
      (∀ a ∈ query (req.selects u) ApplicationRow.newest req.applicationTies db.applications,
        R ((decisionsOf req.decisionTies db.decisions a.id).map (·.summary float))
          ((decisionsOf req'.decisionTies db'.decisions a.id).map (·.summary float))) →
      List.Forall₂ (Continues R) (req.entries float u db)
        (((query (req.selects u) ApplicationRow.newest req.applicationTies db.applications).map g).map
          (·.summary float req'.decisionTies db'.decisions)) := by
    intro R hR
    rw [AccessRequest.entries, List.map_map, List.forall₂_map_left_iff, List.forall₂_map_right_iff,
      List.forall₂_same]
    exact fun a ha => continues_summary (hg a) (hR a ha)
  rw [AccessRequest.entries, hsel]
  constructor
  · exact ⟨_, subperm_map hsubperm _, hentries fun a _ => subperm_map (query_subperm hlater.decisions) _⟩
  · intro hdistinct
    refine ⟨_, (hsublist (hsel ▸ hdistinct.applications u hu)).map _, hentries fun a ha => ?_⟩
    obtain ⟨hmem, hgsel⟩ := mem_query.mp (hsubperm.subset (List.mem_map_of_mem ha))
    have hid : (g a).id = a.id := (hg a).id_eq
    exact (query_sublist (hid ▸ hdistinct.decisions u hu (g a) hmem (hsel ▸ hgsel)) hlater.decisions).map _

/-- **What an access request is told, every later one of the same applicant is told, whatever came in, was erased, wiped
or withdrawn in between: only the flags may be set and decisions may be added. It is told in the same order where no two
of the applications and no two decisions of one of them have the same key.** -/
theorem access_kept {db db' : HeldData} {ls : List AccessStep} (hrun : accessSystem.run db ls = some db')
    {req req' : AccessRequest} (hid : req'.applicantId = req.applicantId)
    (hpan : req'.requestingPanHmac = req.requestingPanHmac) {r : DataAccessResponse F}
    (h : handleAccessRequest float req db = .ok r) :
    ∃ r', handleAccessRequest float req' db' = .ok r' ∧
      (∃ l, l.Subperm r'.dataHeld ∧ List.Forall₂ (Continues List.Subperm) r.dataHeld l) ∧
        (req'.Distinct db' → ∃ l, l.Sublist r'.dataHeld ∧ List.Forall₂ (Continues List.Sublist) r.dataHeld l) := by
  have hlater : HeldLater db db' := System.invariant_run HeldLater.step (.refl db) hrun
  cases hu : Uuid.parse req.applicantId with
  | none =>
    rw [handleAccessRequest, hu] at h
    cases h
  | some u =>
    have hu' : Uuid.parse req'.applicantId = some u := hid ▸ hu
    obtain ⟨⟨l, hsub, hall⟩, hordered⟩ := entries_kept float hlater hu' hpan
    rw [handleAccessRequest_eq_answer hu, AccessRequest.answer] at h
    split at h
    · cases h
    · rename_i hne
      obtain rfl := Except.ok.inj h
      -- what was told before is not nothing
      have hne' : ¬ (req'.entries float u db').isEmpty = true := by
        intro he
        rw [List.isEmpty_iff.mp he, List.subperm_nil] at hsub
        rw [hsub, List.forall₂_nil_right_iff] at hall
        exact hne (List.isEmpty_iff.mpr hall)
      rw [handleAccessRequest_eq_answer hu', AccessRequest.answer, if_neg hne']
      exact ⟨_, rfl, ⟨l, hsub, hall⟩, hordered⟩

end

/-- The decision, a withdrawal and an erasure. -/
def AccessSample.steps : List AccessStep :=
  [.decide ⟨⟨1⟩, ⟨3⟩, 1, false, .approve, 9000, WipeSample.midnight 1⟩,
    .withdraw ⟨(Uuid.mk 1).str, [], WipeSample.midnight 1⟩, .erase ⟨(Uuid.mk 1).str, [], ⟨8⟩, WipeSample.midnight 2⟩]

/-- The same request before the decision and after the erasure. -/
theorem access_kept_erased :
    ∃ r db' r', handleAccessRequest (fun _ n => n) AccessSample.request AccessSample.db = .ok r ∧
      accessSystem.run AccessSample.db AccessSample.steps = some db' ∧
        handleAccessRequest (fun _ n => n) AccessSample.request db' = .ok r' ∧
          ∃ l, l.Sublist r'.dataHeld ∧ List.Forall₂ (Continues List.Sublist) r.dataHeld l := by
  have hfound : (handleAccessRequest (fun _ n => n) AccessSample.request AccessSample.db).toOption.isSome = true := by
    decide
  cases h : handleAccessRequest (fun _ n => n) AccessSample.request AccessSample.db with
  | error e =>
    rw [h] at hfound
    cases hfound
  | ok r =>
    have hrun : accessSystem.run AccessSample.db AccessSample.steps = some _ := rfl
    obtain ⟨r', hr', -, hl⟩ := access_kept hrun rfl rfl h
    -- there is one application, with one decision
    exact ⟨r, _, r', rfl, hrun, hr', hl ⟨fun _ _ => untied_singleton _, fun _ _ _ _ _ => untied_singleton _⟩⟩

end ComplianceLoop
