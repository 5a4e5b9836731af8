import ComplianceLoop.Dpdp.Application

/-!
# `dpdp/data_subject_handler.py`: erasure requests

`handleErasureRequest` wipes the applications of an applicant early. `handleErasureRequest_snd` says what it does when
nothing else writes: the applications that were not wiped are, each with one event, and the others are reported.
-/

set_option autoImplicit false

namespace ComplianceLoop

open PyLib

/-- `ErasureResponse`. -/
structure ErasureResponse where
  applicantId : Text
  requestId : Text
  processedAt : DateTime
  applicationsWiped : Nat
  applicationsRetained : List Text
  retainedReason : Text
  erasureComplete : Bool
  deriving DecidableEq

/-- Why some data is retained. -/
def retainedReason : Text :=
  ("Audit records (decision hash and HMAC) are retained indefinitely " ++
    "for regulatory non-repudiation purposes under RBI NBFC directions. " ++
    "Decision outcomes are retained for dispute resolution. " ++
    "No personal identification data remains in retained records.").toList

/-- A call of `handle_erasure_request`, with the id it draws and the time it reads. -/
structure ErasureRequest where
  applicantId : Text
  requestingPanHmac : Text
  requestId : Uuid
  now : DateTime

namespace ErasureRequest

variable (req : ErasureRequest)

/-- The WHERE clause. -/
def selects (applicantId : Uuid) (a : Application) : Bool :=
  a.applicantId = applicantId && a.panHmac = req.requestingPanHmac && !a.isDemo

/-- The task run id of the events. -/
def wipeTaskRunId : Text := "erasure-request-".toList ++ req.requestId.str

/-- The event of an early wipe; its retention period is zero days. -/
def event (app : Application) : RetentionEvent := app.retentionEvent req.now req.wipeTaskRunId 0

end ErasureRequest

/-- The text of the refusal. -/
def noApplicationsFound (applicantId : Text) : Text :=
  "No applications found for applicant_id '".toList ++ applicantId ++ "'. Identity could not be verified.".toList

/-- What the loop of `handle_erasure_request` has done so far. -/
structure ErasureState where
  db : RetentionDb
  wipedIds : List Text
  retainedIds : List Text

/-- The body of the loop. -/
def eraseOne (req : ErasureRequest) (s : ErasureState) (app : Application) : ErasureState :=
  if app.retentionWiped then { s with retainedIds := s.retainedIds ++ [app.id.str] }
  else
    { s with
      db := ⟨wipeRows req.now [app.id] s.db.applications, s.db.events ++ [req.event app]⟩
      wipedIds := s.wipedIds ++ [app.id.str] }

/-- `handle_erasure_request`. -/
def handleErasureRequest (req : ErasureRequest) (db : RetentionDb) : Except PyExc ErasureResponse × RetentionDb :=
  match Uuid.parse req.applicantId with
  | none => (raise .valueError "badly formed hexadecimal UUID string".toList, db)
  | some applicantId =>
    let applications := db.applications.filter (req.selects applicantId)
    if applications.isEmpty then (raise .valueError (noApplicationsFound req.applicantId), db)
    else
      let s := applications.foldl (eraseOne req) ⟨db, [], []⟩
      (.ok
        { applicantId := req.applicantId
          requestId := req.requestId.str
          processedAt := req.now
          applicationsWiped := s.wipedIds.length
          applicationsRetained := s.retainedIds
          retainedReason := retainedReason
          erasureComplete := s.retainedIds.length = 0 }, s.db)

theorem foldl_eraseOne (req : ErasureRequest) (apps : List Application) (s : ErasureState) :
    apps.foldl (eraseOne req) s =
      { db :=
          { applications := wipeRows req.now ((apps.filter (!·.retentionWiped)).map Application.id) s.db.applications
            events := s.db.events ++ (apps.filter (!·.retentionWiped)).map req.event }
        wipedIds := s.wipedIds ++ (apps.filter (!·.retentionWiped)).map (·.id.str)
        retainedIds := s.retainedIds ++ (apps.filter (·.retentionWiped)).map (·.id.str) } := by
  induction apps generalizing s with
  | nil => simp
  | cons a apps ih =>
    rw [List.foldl_cons, ih, eraseOne]
    cases h : a.retentionWiped with
    | true => simp [h]
    | false => simp [h, wipeRows_wipeRows]

/-- **What an erasure request leaves**: the selected applications that were not wiped are, each with one event. -/
theorem handleErasureRequest_snd {req : ErasureRequest} {applicantId : Uuid}
    (hu : Uuid.parse req.applicantId = some applicantId) (db : RetentionDb) :
    (handleErasureRequest req db).2 =
      { applications := wipeRows req.now
          (((db.applications.filter (req.selects applicantId)).filter (!·.retentionWiped)).map Application.id)
          db.applications
        events := db.events ++
          ((db.applications.filter (req.selects applicantId)).filter (!·.retentionWiped)).map req.event } := by
  unfold handleErasureRequest
  simp only [hu]
  by_cases h : (db.applications.filter (req.selects applicantId)).isEmpty = true
  · rw [if_pos h, List.isEmpty_iff.mp h]
    simp
  · rw [if_neg h, foldl_eraseOne]

/-- An erasure request that is refused leaves the tables alone. -/
theorem handleErasureRequest_error {req : ErasureRequest} {db : RetentionDb} {e : PyExc}
    (h : (handleErasureRequest req db).1 = .error e) : (handleErasureRequest req db).2 = db := by
  unfold handleErasureRequest at h ⊢
  split at h
  · rfl
  · rename_i u _
    by_cases hn : (db.applications.filter (req.selects u)).isEmpty = true
    · simp only [if_pos hn]
    · simp only [if_neg hn] at h
      cases h

end ComplianceLoop
