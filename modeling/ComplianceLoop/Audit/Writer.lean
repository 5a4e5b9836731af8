import ComplianceLoop.Audit.S3Uploader

/-!
# `audit/writer.py`

The audit node of the pipeline. `buildRecord` is everything that `_write_audit_record` does before its INSERT,
`writeAuditRecord` adds the commit and the scheduling of the upload, and `writeNode` wraps an exception. The state is
the pipeline state with `none` for a missing key, so that a missing key and a key with the value `None` differ.

`buildRecord_eq_ok_iff` lists what a built record is made of; `writeNode_of_commits` and `writeNode_of_not_commits` are
the one description of what a run of the node returns and leaves.
-/

set_option autoImplicit false

namespace ComplianceLoop

open PyLib

variable {D : Type} [FloatOps D]

/-- The keys of the pipeline state that the audit node reads or sets. -/
structure PipelineState (D : Type) where
  decisionId : Option (PyVal D)
  applicationId : Option (PyVal D)
  guidelineVersionId : Option (PyVal D)
  documentResult : Option (PyVal D)
  sanctionsResult : Option (PyVal D)
  temporalResult : Option (PyVal D)
  transactionResult : Option (PyVal D)
  ragContext : Option (PyVal D)
  isDemo : Option (PyVal D)
  decision : Option (PyVal D)
  confidence : Option (PyVal D)
  rationaleChain : Option (PyVal D)
  auditId : Option (PyVal D)

/-- What a write meets: the keys, the text that `str` gives for containers and objects, the clock, the drawn id, and
how far the tag query, the commit and the dispatch of the upload get. -/
structure WriteEnv (D : Type) where
  keys : Keys
  repr : PyVal D → PyStr
  now : DateTime
  now_utc : now.tz = some utcOffset
  recordId : Uuid
  tagQuery : Bool
  commit : Attempt
  dispatch : Bool

/-! ## State extraction helpers -/

/-- What `vars` of an enumeration member holds first in the order of its keys: the class. -/
def enumVars : PyVal D :=
  .dict [(.str (pyStr "__objclass__".toList), .foreign ⟨"EnumType".toList, [], true, none⟩)]

/-- `_serialise_agent_result`. -/
def serialiseAgentResult (repr : PyVal D → PyStr) : PyVal D → Except PyExc (PyVal D)
  | .none => .ok .none
  | .dict items => .ok (.dict items)
  | .dataclass cls fields => .ok (PyVal.asDict (.dataclass cls fields))
  | .object _ attrs => .ok (PyVal.varsDict attrs)
  | .enum _ => .ok enumVars
  | result => (result.toStr repr).map fun s => .dict [(.str (pyStr "raw".toList), .str s)]

/-- `_extract_agent_outputs`. -/
def extractAgentOutputs (repr : PyVal D → PyStr) (s : PipelineState D) : Except PyExc (PyVal D) :=
  (serialiseAgentResult repr (s.documentResult.getD .none)).bind fun document =>
    (serialiseAgentResult repr (s.sanctionsResult.getD .none)).bind fun sanctions =>
      (serialiseAgentResult repr (s.temporalResult.getD .none)).bind fun temporal =>
        (serialiseAgentResult repr (s.transactionResult.getD .none)).bind fun transaction =>
          (serialiseAgentResult repr (s.ragContext.getD .none)).map fun rag =>
            .dict
              [(.str (pyStr "document".toList), document), (.str (pyStr "sanctions".toList), sanctions),
                (.str (pyStr "temporal".toList), temporal), (.str (pyStr "transaction".toList), transaction),
                (.str (pyStr "rag".toList), rag)]

/-- The tags of a record whose guideline version gives none. -/
def allAgentTags : List Text :=
  ["document".toList, "sanctions".toList, "temporal".toList, "transaction".toList, "rag".toList]

/-- `_get_affected_agent_tags`: any failure of the query ends in the fallback. -/
def getAffectedAgentTags (query : Bool) (dbs : Databases) (guidelineVersionId : PyStr) (isDemo : Bool) : List Text :=
  match uuidOf guidelineVersionId with
  | .error _ => allAgentTags
  | .ok u =>
    match query, (dbs.getSessionContext isDemo).guidelineVersions.filter (·.id = u) with
    | true, [row] => if row.affectedAgentTags = [] then allAgentTags else row.affectedAgentTags
    | _, _ => allAgentTags

/-! ## The write -/

/-- `str(state[key])`. -/
def requiredStr (repr : PyVal D → PyStr) (key : Text) : Option (PyVal D) → Except PyExc PyStr
  | none => raise .keyError ('\'' :: (key ++ ['\'']))
  | some v => v.toStr repr

/-- `state.get("is_demo", False)`. -/
def PipelineState.demoFlag (s : PipelineState D) : PyVal D := s.isDemo.getD (.bool false)

/-- The float literal `0.0`. -/
def floatZero (D : Type) [FloatOps D] : PyFloat D := FloatText.ofToken ⟨false, ['0'], some ['0'], none⟩

/-- `float(state.get("confidence", 0.0))`. -/
def confidenceOf (s : PipelineState D) : Except PyExc (PyFloat D) :=
  match s.confidence with
  | none => .ok (floatZero D)
  | some v => v.toFloat

/-- What `_write_audit_record` has computed when it inserts the row. -/
structure Prepared (D : Type) where
  record : AuditRecord
  decisionId : PyStr
  applicationId : PyStr
  guidelineVersionId : PyStr
  agentOutputs : PyVal D
  s3Key : PyStr

variable (C : Crypto) (env : WriteEnv D)

/-- `_write_audit_record` up to its INSERT. -/
def buildRecord (dbs : Databases) (s : PipelineState D) : Except PyExc (Prepared D) :=
  (requiredStr env.repr "decision_id".toList s.decisionId).bind fun decisionId =>
  (requiredStr env.repr "application_id".toList s.applicationId).bind fun applicationId =>
  (requiredStr env.repr "guideline_version_id".toList s.guidelineVersionId).bind fun guidelineVersionId =>
  (extractAgentOutputs env.repr s).bind fun agentOutputs =>
  (computeAgentOutputsHash C agentOutputs).bind fun agentOutputsHash =>
  (computeAuditHmac C env.keys agentOutputsHash decisionId guidelineVersionId env.now).bind fun recordHmac =>
  let s3Key := computePayloadS3Key decisionId env.now
  let isDemo := s.demoFlag.truthy
  let affectedAgentTags := getAffectedAgentTags env.tagQuery dbs guidelineVersionId isDemo
  (uuidOf decisionId).bind fun decisionUuid =>
  (uuidOf applicationId).bind fun applicationUuid =>
  (uuidOf guidelineVersionId).map fun guidelineVersionUuid =>
    { record :=
        { id := env.recordId
          decisionId := decisionUuid
          applicationId := applicationUuid
          guidelineVersionId := guidelineVersionUuid
          affectedAgentTags := affectedAgentTags
          agentOutputsHash := agentOutputsHash
          recordHmac := recordHmac
          payloadS3Key := some s3Key
          payloadS3Uploaded := false
          writtenAt := env.now
          breachFlag := false
          breachFlaggedAt := none
          isDemo := isDemo }
      decisionId := decisionId
      applicationId := applicationId
      guidelineVersionId := guidelineVersionId
      agentOutputs := agentOutputs
      s3Key := s3Key }

/-- What a call leaves behind: its result, the databases, and the uploads it scheduled. -/
structure WriteResult (D : Type) (α : Type) where
  result : Except PyExc α
  dbs : Databases
  scheduled : List (UploadArgs D)

/-- `_schedule_minio_upload`: a dispatch that fails is logged. -/
def scheduleMinioUpload (dispatch : Bool) (args : UploadArgs D) : List (UploadArgs D) := if dispatch then [args] else []

/-- `_write_audit_record`. Its session is opened without the demo flag, and `float` is applied to the confidence only
after the commit. -/
def writeAuditRecord (dbs : Databases) (s : PipelineState D) : WriteResult D Uuid :=
  match buildRecord C env dbs s with
  | .error e => ⟨.error e, dbs, []⟩
  | .ok p =>
    match dbs.getSessionContext.insertAuditRecord p.record env.commit with
    | (.error e, db) => ⟨.error e, dbs.commit db, []⟩
    | (.ok (), db) =>
      match confidenceOf s with
      | .error e => ⟨.error e, dbs.commit db, []⟩
      | .ok confidence =>
        ⟨.ok env.recordId, dbs.commit db,
          scheduleMinioUpload env.dispatch
            { decisionId := p.decisionId
              applicationId := p.applicationId
              guidelineVersionId := p.guidelineVersionId
              writtenAt := env.now
              agentOutputs := p.agentOutputs
              outcome := s.decision.getD (.str [])
              confidence := confidence
              rationaleChain := s.rationaleChain.getD (.list [])
              s3Key := p.s3Key }⟩

/-- The error that `write_node` raises for `exc`. -/
def writeFailed (exc : PyExc) : PyExc :=
  ⟨.runtimeError, "Audit record write failed: ".toList ++ exc.msg ++
    (". The compliance decision cannot be returned without a persisted audit record. " ++
      "This is a system error — check database connectivity.").toList⟩

/-- `write_node`. The flag is rendered for the metrics before the `try`. -/
def writeNode (dbs : Databases) (s : PipelineState D) : WriteResult D (PipelineState D) :=
  match s.demoFlag.toStr env.repr with
  | .error e => ⟨.error e, dbs, []⟩
  | .ok _ =>
    let w := writeAuditRecord C env dbs s
    { w with
      result := match w.result with
        | .ok auditId => .ok { s with auditId := some (.str (pyStr auditId.str)) }
        | .error e => .error (writeFailed e) }

/-! ## What a built record is made of -/

variable {C env} {dbs : Databases} {s : PipelineState D}

/-- The five agent results are a non-empty dict. -/
theorem truthy_of_extractAgentOutputs {repr : PyVal D → PyStr} {o : PyVal D} (h : extractAgentOutputs repr s = .ok o) :
    o.truthy = true := by
  obtain ⟨_, -, h⟩ := bind_eq_ok.mp h
  obtain ⟨_, -, h⟩ := bind_eq_ok.mp h
  obtain ⟨_, -, h⟩ := bind_eq_ok.mp h
  obtain ⟨_, -, h⟩ := bind_eq_ok.mp h
  obtain ⟨_, -, rfl⟩ := map_eq_ok.mp h
  rfl

/-- The values that a record is built from: the texts and UUIDs of the ids, the agent outputs with their canonical
bytes, and the key. -/
structure Inputs (env : WriteEnv D) (s : PipelineState D) where
  decisionText : Text
  applicationText : Text
  guidelineVersionText : Text
  decisionId : Uuid
  applicationId : Uuid
  guidelineVersionId : Uuid
  agentOutputs : PyVal D
  bytes : Bytes
  key : Bytes
  decision_eq : requiredStr env.repr "decision_id".toList s.decisionId = .ok (pyStr decisionText)
  application_eq : requiredStr env.repr "application_id".toList s.applicationId = .ok (pyStr applicationText)
  guideline_eq :
    requiredStr env.repr "guideline_version_id".toList s.guidelineVersionId = .ok (pyStr guidelineVersionText)
  decision_parse : Uuid.parse decisionText = some decisionId
  application_parse : Uuid.parse applicationText = some applicationId
  guideline_parse : Uuid.parse guidelineVersionText = some guidelineVersionId
  outputs_eq : extractAgentOutputs env.repr s = .ok agentOutputs
  bytes_eq : canonicalJson agentOutputs = .ok bytes
  key_eq : env.keys.server = .ok key

namespace Inputs

variable (i : Inputs env s)

/-- The signed bytes. -/
def message (C : Crypto) : Bytes :=
  utf8 (hmacText (C.sha256 i.bytes) i.decisionText i.guidelineVersionText env.now.isoformat)

/-- What is built from the inputs. -/
def prepared (C : Crypto) (dbs : Databases) : Prepared D where
  record :=
    { id := env.recordId
      decisionId := i.decisionId
      applicationId := i.applicationId
      guidelineVersionId := i.guidelineVersionId
      affectedAgentTags :=
        getAffectedAgentTags env.tagQuery dbs (pyStr i.guidelineVersionText) s.demoFlag.truthy
      agentOutputsHash := C.sha256 i.bytes
      recordHmac := C.hmac i.key (i.message C)
      payloadS3Key := some (computePayloadS3Key (pyStr i.decisionText) env.now)
      payloadS3Uploaded := false
      writtenAt := env.now
      breachFlag := false
      breachFlaggedAt := none
      isDemo := s.demoFlag.truthy }
  decisionId := pyStr i.decisionText
  applicationId := pyStr i.applicationText
  guidelineVersionId := pyStr i.guidelineVersionText
  agentOutputs := i.agentOutputs
  s3Key := computePayloadS3Key (pyStr i.decisionText) env.now

end Inputs

/-- **A record is built exactly from such inputs.** -/
theorem buildRecord_eq_ok_iff {p : Prepared D} :
    buildRecord C env dbs s = .ok p ↔ ∃ i : Inputs env s, p = i.prepared C dbs := by
  constructor
  · intro h
    obtain ⟨d, hd, h⟩ := bind_eq_ok.mp h
    obtain ⟨a, ha, h⟩ := bind_eq_ok.mp h
    obtain ⟨g, hg, h⟩ := bind_eq_ok.mp h
    obtain ⟨o, ho, h⟩ := bind_eq_ok.mp h
    obtain ⟨t, ht, h⟩ := bind_eq_ok.mp h
    obtain ⟨m, hm, h⟩ := bind_eq_ok.mp h
    obtain ⟨du, hdu, h⟩ := bind_eq_ok.mp h
    obtain ⟨au, hau, h⟩ := bind_eq_ok.mp h
    obtain ⟨gu, hgu, rfl⟩ := map_eq_ok.mp h
    obtain ⟨dt, rfl, hdt⟩ := uuidOf_eq_ok.mp hdu
    obtain ⟨at', rfl, hat⟩ := uuidOf_eq_ok.mp hau
    obtain ⟨gt, rfl, hgt⟩ := uuidOf_eq_ok.mp hgu
    obtain ⟨-, b, hb, rfl⟩ := hashAgentOutputs_eq_ok.mp ht
    obtain ⟨key, written, message, hk, hw, hmsg, rfl⟩ := computeAuditHmac_eq_ok hm
    rw [serialiseWrittenAt_utc env.now_utc] at hw
    cases hw
    rw [buildHmacMessage_pyStr] at hmsg
    cases hmsg
    exact ⟨⟨dt, at', gt, du, au, gu, o, b, key, hd, ha, hg, hdt, hat, hgt, ho, hb, hk⟩, rfl⟩
  · rintro ⟨i, rfl⟩
    have hh : computeAgentOutputsHash C i.agentOutputs = .ok (C.sha256 i.bytes) :=
      hashAgentOutputs_eq_ok.mpr ⟨truthy_of_extractAgentOutputs i.outputs_eq, _, i.bytes_eq, rfl⟩
    have hm : computeAuditHmac C env.keys (C.sha256 i.bytes) (pyStr i.decisionText) (pyStr i.guidelineVersionText)
        env.now = .ok (C.hmac i.key (i.message C)) := by
      rw [computeAuditHmac, serialiseWrittenAt_utc env.now_utc, ok_bind, computeRecordHmac, i.key_eq, ok_bind,
        buildHmacMessage_pyStr]
      rfl
    have hu : ∀ {t : Text} {u : Uuid}, Uuid.parse t = some u → uuidOf (pyStr t) = .ok u :=
      fun h => uuidOf_eq_ok.mpr ⟨_, rfl, h⟩
    rw [buildRecord, i.decision_eq, ok_bind, i.application_eq, ok_bind, i.guideline_eq, ok_bind, i.outputs_eq, ok_bind,
      hh, ok_bind, hm, ok_bind]
    simp only [hu i.decision_parse, hu i.application_parse, hu i.guideline_parse, ok_bind, ok_map]
    rfl

/-! ## What a write leaves -/

/-- The state and the database let the row be inserted, and the commit takes effect. -/
def Commits (env : WriteEnv D) (dbs : Databases) (s : PipelineState D) : Prop :=
  returned (s.demoFlag.toStr env.repr) = true ∧ env.commit ≠ .refused ∧ ∃ i : Inputs env s,
    dbs.production.admits env.recordId i.decisionId i.applicationId i.guidelineVersionId
      (computePayloadS3Key (pyStr i.decisionText) env.now) = true

/-- The databases with a row added to the production table. -/
def Databases.withRecord (dbs : Databases) (r : AuditRecord) : Databases :=
  { dbs with production := { dbs.production with auditRecords := dbs.production.auditRecords ++ [r] } }

/-- The upload scheduled for a prepared record. -/
def Prepared.uploadArgs (p : Prepared D) (s : PipelineState D) (confidence : PyFloat D) : UploadArgs D where
  decisionId := p.decisionId
  applicationId := p.applicationId
  guidelineVersionId := p.guidelineVersionId
  writtenAt := p.record.writtenAt
  agentOutputs := p.agentOutputs
  outcome := s.decision.getD (.str [])
  confidence := confidence
  rationaleChain := s.rationaleChain.getD (.list [])
  s3Key := p.s3Key

/-- The databases after a write are those after the commit, whatever follows it. -/
theorem writeAuditRecord_of_prepared {p : Prepared D} (hp : buildRecord C env dbs s = .ok p) :
    (writeAuditRecord C env dbs s).dbs =
      dbs.commit (dbs.getSessionContext.insertAuditRecord p.record env.commit).2 := by
  simp only [writeAuditRecord, hp]
  split
  · rename_i he
    rw [he]
  · rename_i he
    rw [he]
    split <;> rfl

/-- A write leaves the databases alone or adds a row built from its inputs. -/
theorem writeAuditRecord_dbs : (writeAuditRecord C env dbs s).dbs = dbs ∨
    ∃ i : Inputs env s, (writeAuditRecord C env dbs s).dbs = dbs.withRecord (i.prepared C dbs).record := by
  cases hp : buildRecord C env dbs s with
  | error e =>
    left
    simp only [writeAuditRecord, hp]
  | ok p =>
    obtain ⟨i, rfl⟩ := buildRecord_eq_ok_iff.mp hp
    rw [writeAuditRecord_of_prepared hp]
    rcases dbs.getSessionContext.insertAuditRecord_snd (i.prepared C dbs).record env.commit with hdb | hdb
    · exact .inl (by rw [hdb]; rfl)
    · exact .inr ⟨i, by rw [hdb]; rfl⟩

/-- **A write that does not commit raises and leaves nothing.** -/
theorem writeNode_of_not_commits (h : ¬ Commits env dbs s) :
    returned (writeNode C env dbs s).result = false ∧ (writeNode C env dbs s).dbs = dbs ∧
      (writeNode C env dbs s).scheduled = [] := by
  unfold writeNode
  split
  · exact ⟨rfl, rfl, rfl⟩
  · rename_i t hstr
    unfold writeAuditRecord
    split
    · exact ⟨rfl, rfl, rfl⟩
    · rename_i p hp
      obtain ⟨i, rfl⟩ := buildRecord_eq_ok_iff.mp hp
      have hins : ∃ e, dbs.getSessionContext.insertAuditRecord (i.prepared C dbs).record env.commit =
          (.error e, dbs.getSessionContext) := by
        unfold Database.insertAuditRecord
        split
        · rename_i ha
          cases hc : env.commit with
          | refused => exact ⟨_, rfl⟩
          | done => exact absurd ⟨by rw [hstr]; rfl, by simp [hc], i, ha⟩ h
          | unacknowledged => exact absurd ⟨by rw [hstr]; rfl, by simp [hc], i, ha⟩ h
        · exact ⟨_, rfl⟩
      obtain ⟨e, he⟩ := hins
      rw [he]
      exact ⟨rfl, rfl, rfl⟩

/-- **A write that commits adds the row built from its inputs to the production table, and returns exactly when the
commit is acknowledged and `float` accepts the confidence.** -/
theorem writeNode_of_commits (h : Commits env dbs s) : ∃ i : Inputs env s,
    (writeNode C env dbs s).dbs = dbs.withRecord (i.prepared C dbs).record ∧
      dbs.production.accepts (i.prepared C dbs).record = true ∧
      (returned (writeNode C env dbs s).result = true ↔ env.commit = .done ∧ returned (confidenceOf s) = true) ∧
      ∀ a ∈ (writeNode C env dbs s).scheduled, ∃ confidence, a = (i.prepared C dbs).uploadArgs s confidence := by
  obtain ⟨hstr, hc, i, ha⟩ := h
  obtain ⟨t, hstr⟩ := returned_iff.mp hstr
  have hb : buildRecord C env dbs s = .ok (i.prepared C dbs) := buildRecord_eq_ok_iff.mpr ⟨i, rfl⟩
  have hacc : dbs.getSessionContext.accepts (i.prepared C dbs).record = true := ha
  refine ⟨i, ?_⟩
  rw [writeNode, hstr]
  simp only [writeAuditRecord, hb, Database.insertAuditRecord, hacc, if_true]
  cases hcommit : env.commit with
  | refused => exact absurd hcommit hc
  | unacknowledged => exact ⟨rfl, hacc, by simp [Attempt.run, raise], by simp [Attempt.run, raise]⟩
  | done =>
    cases hf : confidenceOf s with
    | error e => exact ⟨rfl, hacc, by simp [Attempt.run], by simp [Attempt.run]⟩
    | ok f =>
      refine ⟨rfl, hacc, by simp [Attempt.run], ?_⟩
      intro a hm
      simp only [Attempt.run, scheduleMinioUpload] at hm
      split at hm
      · exact ⟨f, List.mem_singleton.mp hm⟩
      · exact absurd hm List.not_mem_nil

end ComplianceLoop
