import ComplianceLoop.Audit.WriteNode

/-!
# Honest records

A record that was signed, uploaded and left alone. Its hash is that of the agent outputs in memory, the verifier hashes
what `json.loads` reads back from the object. The two agree exactly when the order of the keys of every dict is the
order of the strings they become, and the upload succeeds exactly when the other values of the payload can be written
(`verifiesAfterUpload_iff`).
-/

set_option autoImplicit false

namespace ComplianceLoop

open PyLib

variable {D : Type} [FloatOps D] {C : Crypto} {keys : Keys}

/-! ## The payload -/

/-- The items of the payload. -/
def UploadArgs.payloadItems (a : UploadArgs D) : List (Text × PyVal D) :=
  [("application_id".toList, .str a.applicationId), ("decision_id".toList, .str a.decisionId),
    ("guideline_version_id".toList, .str a.guidelineVersionId),
    ("written_at".toList, .str (pyStr a.writtenAt.isoformat)), ("agent_outputs".toList, a.agentOutputs),
    ("outcome".toList, a.outcome), ("confidence".toList, .float a.confidence),
    ("rationale_chain".toList, a.rationaleChain)]

omit [FloatOps D] in
theorem UploadArgs.payload_eq (a : UploadArgs D) : a.payload = .varsDict a.payloadItems := rfl

omit [FloatOps D] in
theorem UploadArgs.nodup_payloadItems (a : UploadArgs D) : (a.payloadItems.map Prod.fst).Nodup := by
  have hnames : a.payloadItems.map Prod.fst = ["application_id".toList, "decision_id".toList,
      "guideline_version_id".toList, "written_at".toList, "agent_outputs".toList, "outcome".toList, "confidence".toList,
      "rationale_chain".toList] := rfl
  rw [hnames]
  decide +kernel

omit [FloatOps D] in
theorem UploadArgs.mem_payloadItems (a : UploadArgs D) : (agentOutputsKey, a.agentOutputs) ∈ a.payloadItems :=
  List.mem_of_getElem? (i := 4) rfl

/-- The payload can be written exactly when its three untyped values can. -/
theorem UploadArgs.returned_payload (a : UploadArgs D) : returned a.payload.dumps = true ↔
    returned a.agentOutputs.dumps = true ∧ returned a.outcome.dumps = true ∧
      returned a.rationaleChain.dumps = true := by
  have hstr : ∀ s : PyStr, returned (PyVal.dumps (D := D) (.str s)) = true := fun _ => rfl
  have hfloat : ∀ f : PyFloat D, returned (PyVal.dumps (.float f)) = true := fun _ => rfl
  rw [a.payload_eq, PyVal.returned_dumps_varsDict]
  simp only [UploadArgs.payloadItems, List.forall_mem_cons, List.not_mem_nil, IsEmpty.forall_iff, implies_true, hstr,
    hfloat, true_and, and_true]

theorem encryptedPayload_eq_ok {nonce : Nonce} {a : UploadArgs D} {e : Bytes}
    (h : encryptedPayload C keys nonce a = .ok e) :
    ∃ text, a.payload.dumps = .ok text ∧ decryptPayload C keys e = .ok (utf8 text) := by
  obtain ⟨text, ht, he⟩ := bind_eq_ok.mp h
  exact ⟨text, ht, decryptPayload_encryptPayload he⟩

/-- The payload is encrypted exactly when it can be written and payloads can be encrypted. -/
theorem returned_encryptedPayload (nonce : Nonce) (a : UploadArgs D) :
    returned (encryptedPayload C keys nonce a) = true ↔ returned a.payload.dumps = true ∧ canEncrypt C keys = true := by
  unfold encryptedPayload
  cases ht : a.payload.dumps with
  | error e => simp
  | ok text =>
    have hne : utf8 text ≠ [] := canonicalJson_ne_nil (v := a.payload) (by rw [canonicalJson, ht]; rfl)
    rw [ok_bind, returned_encryptPayload hne, returned_ok, eq_self_iff_true, true_and]

/-! ## An upload that meets no fault -/

/-- `get_object`. -/
def World.getObject (w : World) (k : PyStr) : Except PyExc Bytes :=
  match getItem k w.objects with
  | some object => .ok object
  | none => raise .storeError "The specified key does not exist.".toList

/-- The upload of a payload that can be written succeeds and leaves the object. -/
theorem uploadAuditPayload_of_ok {nonce : Nonce} {a : UploadArgs D} {w : World} {u : Uuid} {e : Bytes}
    (hdb : w.dbs.production.Keyed) (hu : uuidOf a.decisionId = .ok u) (he : encryptedPayload C keys nonce a = .ok e) :
    (uploadAuditPayload C keys nonce ⟨.done, .done⟩ a w).1 = true ∧
      (uploadAuditPayload C keys nonce ⟨.done, .done⟩ a w).2.getObject a.s3Key = .ok e := by
  obtain ⟨o, ho⟩ := hdb.auditRecord_query u
  have hmark : ∃ dbs, markUploaded .done a.decisionId a.s3Key w.dbs = (.ok (), dbs) := by
    have hquery : scalarOneOrNone (w.dbs.getSessionContext.auditRecordsOf u) = .ok o := ho
    rw [markUploaded, hu, ok_bind, hquery, ok_map]
    cases o with
    | none => exact ⟨_, rfl⟩
    | some r => exact ⟨_, rfl⟩
  obtain ⟨dbs, hm⟩ := hmark
  rw [uploadAuditPayload, he]
  simp only [uploadToMinio, Attempt.run, hm, true_and]
  rw [World.getObject, getItem_setItem]

/-- An upload of a payload that cannot be written fails. -/
theorem uploadAuditPayload_of_error {nonce : Nonce} {a : UploadArgs D}
    (he : returned (encryptedPayload C keys nonce a) = false) (faults : UploadFaults) (w : World) :
    (uploadAuditPayload C keys nonce faults a w).1 = false := by
  rw [uploadAuditPayload]
  split
  · rfl
  · rename_i e h
    rw [h] at he
    cases he

/-- The payload that is decoded from the object has the agent outputs as `json.loads` reads them back. -/
theorem decodePayload_of_encrypted {nonce : Nonce} {a : UploadArgs D} {e : Bytes}
    (he : encryptedPayload C keys nonce a = .ok e) : ∃ payload doc, a.agentOutputs.encode = .ok doc ∧
      decodePayload D C keys e [agentOutputsKey] = .ok payload ∧
        ∀ default, payload.get (pyStr agentOutputsKey) default = .ok (.ofJson doc.joined) := by
  obtain ⟨text, ht, hdec⟩ := encryptedPayload_eq_ok he
  obtain ⟨payload, doc, hl, hdoc, hin, hget⟩ := PyVal.get_loads a.nodup_payloadItems ht a.mem_payloadItems
  refine ⟨payload, doc, hdoc, ?_, hget⟩
  rw [decodePayload, hdec, ok_bind, utf8Decode_utf8]
  simp only [hl, ok_bind, requireKeys, hin, if_true]

/-- What is downloaded after an upload that meets no fault. -/
theorem download_of_upload {nonce : Nonce} {a : UploadArgs D} {w : World} {u : Uuid} (hdb : w.dbs.production.Keyed)
    (hu : uuidOf a.decisionId = .ok u) (he : returned (encryptedPayload C keys nonce a) = true) (now : DateTime) :
    ∃ payload doc, a.agentOutputs.encode = .ok doc ∧
      downloadAndDecryptPayload D C ⟨keys, (uploadAuditPayload C keys nonce ⟨.done, .done⟩ a w).2.getObject, now⟩
        a.s3Key [agentOutputsKey] = .ok payload ∧
        ∀ default, payload.get (pyStr agentOutputsKey) default = .ok (.ofJson doc.joined) := by
  obtain ⟨e, he⟩ := returned_iff.mp he
  obtain ⟨payload, doc, hdoc, hdec, hget⟩ := decodePayload_of_encrypted he
  exact ⟨payload, doc, hdoc, bind_eq_ok.mpr ⟨e, (uploadAuditPayload_of_ok hdb hu he).2, hdec⟩, hget⟩

/-! ## Verification after the upload -/

/-- The upload succeeds, and the agent outputs that are read back from the object have the same canonical JSON and pass
the full verification of the stored record. -/
def VerifiesAfterUpload (C : Crypto) (keys : Keys) (nonce : Nonce) (now : DateTime) (a : UploadArgs D) (w : World)
    (r : AuditRecord) : Prop :=
  let upload := uploadAuditPayload C keys nonce ⟨.done, .done⟩ a w
  upload.1 = true ∧ ∃ payload o : PyVal D,
    downloadAndDecryptPayload D C ⟨keys, upload.2.getObject, now⟩ a.s3Key [agentOutputsKey] = .ok payload ∧
      payload.get (pyStr agentOutputsKey) (.dict []) = .ok o ∧ canonicalJson o = canonicalJson a.agentOutputs ∧
        runFullVerification C keys r o = .ok (true, [])

/-- The record holds the hash and the HMAC of the agent outputs under the ids and the time of the upload, its ids are
those of the upload and its time is the same instant. -/
structure SignedFor (C : Crypto) (keys : Keys) (a : UploadArgs D) (r : AuditRecord) : Prop where
  hash : computeAgentOutputsHash C a.agentOutputs = .ok r.agentOutputsHash
  hmac : computeAuditHmac C keys r.agentOutputsHash a.decisionId a.guidelineVersionId a.writtenAt = .ok r.recordHmac
  decision : a.decisionId = pyStr r.decisionId.str
  guidelineVersion : a.guidelineVersionId = pyStr r.guidelineVersionId.str
  writtenAt : r.writtenAt.instant = a.writtenAt.instant

/-- The outputs that are read back have the same canonical JSON exactly when the keys agree. -/
theorem canonicalJson_joined_iff {o : PyVal D} {doc : Json D} (h : o.encode = .ok doc) :
    canonicalJson (.ofJson doc.joined) = canonicalJson o ↔ o.KeysAgree := by
  have ht : o.dumps = .ok doc.print := by rw [PyVal.dumps, h]; rfl
  rw [← PyVal.dumps_loads_iff ht, PyVal.loads_print h, ok_bind, canonicalJson, canonicalJson, ht, ok_map]
  cases PyVal.dumps (.ofJson doc.joined) with
  | error e => simp
  | ok t => simp

/-- Outputs with the canonical JSON of those that were signed pass the full verification, unless they are empty. -/
theorem SignedFor.runFull {a : UploadArgs D} {r : AuditRecord} (h : SignedFor C keys a r) {o : PyVal D}
    (ht : o.truthy = true) (hc : canonicalJson o = canonicalJson a.agentOutputs) :
    runFullVerification C keys r o = .ok (true, []) := by
  obtain ⟨-, b, hb, hs⟩ := hashAgentOutputs_eq_ok.mp h.hash
  obtain ⟨key, written, message, hk, hw, hmsg, hm⟩ := computeAuditHmac_eq_ok h.hmac
  rw [h.decision, h.guidelineVersion, hs] at hmsg
  refine verifyAuditRecordIntegrity_eq_valid_iff.mpr ⟨rfl, ht, b, written, hc.trans hb, ?_, ?_, ?_⟩
  · rw [hs, Crypto.lower_sha256]
  · exact (serialiseWrittenAt_congr h.writtenAt).trans hw
  · exact (verifyRecordHmac_eq_true_iff hmsg).mpr ⟨key, hk, .inl (by rw [hm, Crypto.lower_hmac])⟩

/-- **A record that was signed and uploaded, and left alone, verifies exactly when the keys of its agent outputs agree,
the other values of its payload can be written and payloads can be encrypted.** -/
theorem verifiesAfterUpload_iff {nonce : Nonce} {now : DateTime} {a : UploadArgs D} {w : World} {r : AuditRecord}
    {items : List (PyKey D × PyVal D)} (ho : a.agentOutputs = .dict items) (hs : SignedFor C keys a r)
    (hdb : w.dbs.production.Keyed) :
    VerifiesAfterUpload C keys nonce now a w r ↔ a.agentOutputs.KeysAgree ∧
      (returned a.outcome.dumps = true ∧ returned a.rationaleChain.dumps = true) ∧ canEncrypt C keys = true := by
  obtain ⟨ht, b, hb, -⟩ := hashAgentOutputs_eq_ok.mp hs.hash
  have hdump : returned a.agentOutputs.dumps = true := by
    obtain ⟨t, ht, -⟩ := map_eq_ok.mp hb
    rw [ht]
    rfl
  have hret : returned (encryptedPayload C keys nonce a) = true ↔
      (returned a.outcome.dumps = true ∧ returned a.rationaleChain.dumps = true) ∧ canEncrypt C keys = true := by
    rw [returned_encryptedPayload, a.returned_payload]
    simp only [hdump, true_and]
  rw [← hret]
  cases he : returned (encryptedPayload C keys nonce a) with
  | false =>
    have hup := uploadAuditPayload_of_error he ⟨.done, .done⟩ w
    exact iff_of_false (fun h => absurd (hup.symm.trans h.1) Bool.false_ne_true) fun h => Bool.false_ne_true h.2
  | true =>
    have hu : uuidOf a.decisionId = .ok r.decisionId := by rw [hs.decision, uuidOf_str]
    have hup : (uploadAuditPayload C keys nonce ⟨.done, .done⟩ a w).1 = true := by
      obtain ⟨e, he⟩ := returned_iff.mp he
      exact (uploadAuditPayload_of_ok hdb hu he).1
    obtain ⟨payload, doc, hdoc, hdown, hget⟩ := download_of_upload hdb hu he now
    rw [eq_self_iff_true, and_true, ← canonicalJson_joined_iff hdoc]
    constructor
    · rintro ⟨-, payload', o, hdown', ho', hc, -⟩
      cases hdown.symm.trans hdown'
      cases (hget _).symm.trans ho'
      exact hc
    · intro hc
      refine ⟨hup, payload, _, hdown, hget _, hc, hs.runFull ?_ hc⟩
      rw [ho] at ht hdoc
      exact PyVal.truthy_joined (by rintro rfl; cases ht) hdoc

namespace Sample

/-- The upload of some agent outputs of the first decision. -/
def uploadOf (agentOutputs : PyVal WholeFloat) : UploadArgs WholeFloat where
  decisionId := pyStr (uuid 1).str
  applicationId := pyStr (uuid 2).str
  guidelineVersionId := pyStr (uuid 3).str
  writtenAt := now
  agentOutputs := agentOutputs
  outcome := .str (pyStr "APPROVE".toList)
  confidence := .finite ⟨1⟩
  rationaleChain := .list []
  s3Key := computePayloadS3Key (pyStr (uuid 1).str) now

/-- A dict whose keys are the integers 2 and 10, as the document result. -/
def numbered : PyVal WholeFloat :=
  .dict [(.str (pyStr "document".toList), .dict [(.int 2, .bool true), (.int 10, .bool false)])]

/-- The object that is uploaded for it. -/
def numberedObject :
    { b : Bytes // encryptedPayload Sample.crypto Sample.keys Sample.nonce (uploadOf numbered) = .ok b } :=
  ⟨version :: (Sample.nonce.val ++ numberedTrueCiphertext), by decide +kernel⟩

theorem signedFor_outputs : SignedFor Sample.crypto Sample.keys (uploadOf outputs) record :=
  ⟨by decide +kernel, by decide +kernel, rfl, rfl, rfl⟩

theorem signedFor_numbered :
    SignedFor Sample.crypto Sample.keys (uploadOf numbered) (recordWith numberedHash numberedHash) :=
  ⟨by decide +kernel, by decide +kernel, rfl, rfl, rfl⟩

theorem keyed_dbs : dbs.production.Keyed := ⟨List.nodup_nil, List.nodup_singleton _⟩

end Sample

/-- A record whose outputs have string keys only. -/
theorem verifiesAfterUpload_iff_outputs :
    VerifiesAfterUpload Sample.crypto Sample.keys Sample.nonce Sample.now (Sample.uploadOf Sample.outputs)
        ⟨Sample.dbs, []⟩ Sample.record ↔
      Sample.outputs.KeysAgree ∧
        (returned (PyVal.dumps (D := WholeFloat) (.str (pyStr "APPROVE".toList))) = true ∧
          returned (PyVal.dumps (D := WholeFloat) (.list [])) = true) ∧ canEncrypt Sample.crypto Sample.keys = true :=
  verifiesAfterUpload_iff rfl Sample.signedFor_outputs Sample.keyed_dbs

/-- The integers 2 and 10 are written in this order, and in the other once they are strings. -/
theorem integer_keys_fail :
    ¬ ∀ (keys : Keys) (nonce : Nonce) (now : DateTime) (a : UploadArgs WholeFloat) (w : World) (r : AuditRecord)
      (items : List (PyKey WholeFloat × PyVal WholeFloat)), a.agentOutputs = .dict items →
      SignedFor Sample.crypto keys a r → w.dbs.production.Keyed → returned a.outcome.dumps = true →
      returned a.rationaleChain.dumps = true → canEncrypt Sample.crypto keys = true →
      VerifiesAfterUpload Sample.crypto keys nonce now a w r := by
  intro h
  obtain ⟨-, payload, o, hdown, hget, -, hfull⟩ := h Sample.keys Sample.nonce Sample.now _ ⟨Sample.dbs, []⟩ _ _ rfl
    Sample.signedFor_numbered Sample.keyed_dbs rfl rfl rfl
  have henc : returned (encryptedPayload Sample.crypto Sample.keys Sample.nonce (Sample.uploadOf Sample.numbered)) =
      true := by
    rw [Sample.numberedObject.property]
    rfl
  obtain ⟨payload', doc, hdoc, hdown', hget'⟩ := download_of_upload (a := Sample.uploadOf Sample.numbered)
    (w := ⟨Sample.dbs, []⟩) Sample.keyed_dbs (uuidOf_str (Sample.uuid 1)) henc Sample.now
  cases hdown.symm.trans hdown'
  cases (hget' _).symm.trans hget
  have hinvalid : (Sample.numbered.encode.bind fun doc => runFullVerification Sample.crypto Sample.keys
      (Sample.recordWith Sample.numberedHash Sample.numberedHash) (.ofJson doc.joined)) ≠ .ok (true, []) := by
    decide +kernel
  exact hinvalid (bind_eq_ok.mpr ⟨doc, hdoc, hfull⟩)

end ComplianceLoop
