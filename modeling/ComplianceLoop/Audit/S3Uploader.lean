import ComplianceLoop.Audit.Hasher
import ComplianceLoop.Db.Session

/-!
# `audit/s3_uploader.py`

The upload of an audit payload: the payload is written as JSON, encrypted, put into the object store, and the audit
record is marked. A `World` is the two databases and the objects of the bucket. Every exception ends in `False`, with
whatever took effect before it.
-/

set_option autoImplicit false

namespace ComplianceLoop

open PyLib

/-- The databases and the bucket. -/
structure World where
  dbs : Databases
  objects : List (PyStr × Bytes)
  deriving DecidableEq

/-- What the object store and the database do during an upload. -/
structure UploadFaults where
  put : Attempt
  mark : Attempt

section

variable {D : Type} [FloatOps D]

/-- The arguments of `upload_audit_payload`. -/
structure UploadArgs (D : Type) where
  decisionId : PyStr
  applicationId : PyStr
  guidelineVersionId : PyStr
  writtenAt : DateTime
  agentOutputs : PyVal D
  outcome : PyVal D
  confidence : PyFloat D
  rationaleChain : PyVal D
  s3Key : PyStr

/-- The payload as a dict. -/
def UploadArgs.payload (a : UploadArgs D) : PyVal D :=
  .dict
    [(.str (pyStr "application_id".toList), .str a.applicationId),
      (.str (pyStr "decision_id".toList), .str a.decisionId),
      (.str (pyStr "guideline_version_id".toList), .str a.guidelineVersionId),
      (.str (pyStr "written_at".toList), .str (pyStr a.writtenAt.isoformat)),
      (.str (pyStr "agent_outputs".toList), a.agentOutputs),
      (.str (pyStr "outcome".toList), a.outcome),
      (.str (pyStr "confidence".toList), .float a.confidence),
      (.str (pyStr "rationale_chain".toList), a.rationaleChain)]

/-- `_upload_to_minio`. -/
def uploadToMinio (attempt : Attempt) (encryptedBytes : Bytes) (s3Key : PyStr) (objects : List (PyStr × Bytes)) :
    Except PyExc Unit × List (PyStr × Bytes) :=
  attempt.run .storeError objects (setItem s3Key encryptedBytes objects)

/-- The audit records with the flag and the key of one record set. -/
def markRow (u : Uuid) (s3Key : PyStr) (rows : List AuditRecord) : List AuditRecord :=
  rows.map fun r => if r.decisionId = u then { r with payloadS3Uploaded := true, payloadS3Key := some s3Key } else r

/-- `_mark_uploaded`; its session is opened without the demo flag. -/
def markUploaded (attempt : Attempt) (decisionId s3Key : PyStr) (dbs : Databases) : Except PyExc Unit × Databases :=
  match (uuidOf decisionId).bind fun u => (scalarOneOrNone (dbs.getSessionContext.auditRecordsOf u)).map fun r => (u, r)
  with
  | .error e => (.error e, dbs)
  | .ok (_, none) => (.ok (), dbs)
  | .ok (u, some _) =>
    let db := dbs.getSessionContext
    attempt.run .databaseError dbs (dbs.commit { db with auditRecords := markRow u s3Key db.auditRecords })

variable (C : Crypto) (keys : Keys)

/-- The bytes that `upload_audit_payload` puts into the bucket. -/
def encryptedPayload (nonce : Nonce) (a : UploadArgs D) : Except PyExc Bytes :=
  a.payload.dumps.bind fun text => encryptPayload C keys nonce (utf8 text)

/-- `upload_audit_payload`: whether the upload succeeded, and the world afterwards. -/
def uploadAuditPayload (nonce : Nonce) (faults : UploadFaults) (a : UploadArgs D) (w : World) : Bool × World :=
  match encryptedPayload C keys nonce a with
  | .error _ => (false, w)
  | .ok encryptedBytes =>
    match uploadToMinio faults.put encryptedBytes a.s3Key w.objects with
    | (.error _, objects) => (false, { w with objects := objects })
    | (.ok (), objects) =>
      match markUploaded faults.mark a.decisionId a.s3Key w.dbs with
      | (.error _, dbs) => (false, ⟨dbs, objects⟩)
      | (.ok (), dbs) => (true, ⟨dbs, objects⟩)

end

/-! ## What an upload does to the databases -/

/-- The databases with the production record of a decision marked. -/
def Databases.marked (dbs : Databases) (u : Uuid) (s3Key : PyStr) : Databases :=
  { dbs with
    production := { dbs.production with auditRecords := markRow u s3Key dbs.production.auditRecords } }

/-- A mark leaves the other columns alone. -/
theorem map_markRow {β : Type} {g : AuditRecord → β}
    (hg : ∀ r k, g { r with payloadS3Uploaded := true, payloadS3Key := some k } = g r) (u : Uuid) (k : PyStr)
    (rows : List AuditRecord) : (markRow u k rows).map g = rows.map g := by
  rw [markRow, List.map_map]
  refine List.map_congr_left fun r _ => ?_
  rw [Function.comp_apply]
  split
  · exact hg r k
  · rfl

theorem markUploaded_dbs (attempt : Attempt) (d k : PyStr) (dbs : Databases) :
    (markUploaded attempt d k dbs).2 = dbs ∨ ∃ u, (markUploaded attempt d k dbs).2 = dbs.marked u k := by
  unfold markUploaded
  split
  · exact .inl rfl
  · exact .inl rfl
  · rename_i u _ _
    cases attempt
    · exact .inr ⟨u, rfl⟩
    · exact .inl rfl
    · exact .inr ⟨u, rfl⟩

variable {D : Type} [FloatOps D] {C : Crypto} {keys : Keys}

variable (C keys) in
/-- **An upload leaves the databases alone or marks the records of one decision in production.** -/
theorem uploadAuditPayload_dbs (nonce : Nonce) (faults : UploadFaults) (a : UploadArgs D) (w : World) :
    (uploadAuditPayload C keys nonce faults a w).2.dbs = w.dbs ∨
      ∃ u, (uploadAuditPayload C keys nonce faults a w).2.dbs = w.dbs.marked u a.s3Key := by
  have hm := markUploaded_dbs faults.mark a.decisionId a.s3Key w.dbs
  unfold uploadAuditPayload
  split
  · exact .inl rfl
  · split
    · exact .inl rfl
    · split
      · rename_i hd
        rwa [hd] at hm
      · rename_i hd
        rwa [hd] at hm

/-- An upload never changes the demo database. -/
theorem demo_uploadAuditPayload (nonce : Nonce) (faults : UploadFaults) (a : UploadArgs D) (w : World) :
    (uploadAuditPayload C keys nonce faults a w).2.dbs.demo = w.dbs.demo := by
  rcases uploadAuditPayload_dbs C keys nonce faults a w with h | ⟨u, h⟩
  · rw [h]
  · rw [h]
    rfl

/-- An upload adds no row. -/
theorem length_production_uploadAuditPayload (nonce : Nonce) (faults : UploadFaults) (a : UploadArgs D) (w : World) :
    (uploadAuditPayload C keys nonce faults a w).2.dbs.production.auditRecords.length =
      w.dbs.production.auditRecords.length := by
  rcases uploadAuditPayload_dbs C keys nonce faults a w with h | ⟨u, h⟩ <;> rw [h]
  simp [Databases.marked, markRow]

end ComplianceLoop
