import ComplianceLoop.PyLib.JsonRead
import ComplianceLoop.Audit.S3Uploader

/-!
# `audit/verifier.py`

The verification of one record and of all records of an application. The object store is a function that gives the
bytes under a key or raises, so it covers a present, an absent and an altered object as well as an unreachable store.

`verifyByDecisionId_eq_ok` takes a returned report apart: it is `reportOf` the one record of the decision, its decision
if there is one, and what `checkRecord` finds.
-/

set_option autoImplicit false

namespace ComplianceLoop

open PyLib

/-- `VerificationResult`. -/
structure VerificationResult where
  decisionId : PyStr
  applicationId : Text
  guidelineVersionId : Text
  writtenAt : Text
  outcome : Text
  isValid : Bool
  hashCheckPassed : Bool
  hmacCheckPassed : Bool
  minioPayloadAvailable : Bool
  failureReason : Text
  agentOutputsHash : Text
  recordHmacPrefix : Text
  verifiedAt : Text
  deriving DecidableEq

/-- What a verification reads besides the database: the keys, the bucket and the clock. -/
structure VerifyEnv where
  keys : Keys
  getObject : PyStr → Except PyExc Bytes
  now : DateTime

/-- The four values that the verification of a record computes, and whether the payload was read. -/
structure CheckResult where
  isValid : Bool
  failureReason : Text
  hashPassed : Bool
  hmacPassed : Bool
  minioAvailable : Bool
  deriving DecidableEq

/-- `p in t` on two strings. -/
def containsText (p t : Text) : Bool := decide (p <:+: t)

section

variable (D : Type) [FloatOps D] (C : Crypto) (env : VerifyEnv)

/-- The reason given when the HMAC alone does not verify. -/
def hmacOnlyMismatch : Text :=
  ("HMAC verification failed (MinIO payload unavailable for hash check). " ++
    "The stored HMAC does not match the expected value for this audit record.").toList

/-- `_run_hmac_only_verification`. -/
def runHmacOnlyVerification (keys : Keys) (r : AuditRecord) : Except PyExc (Bool × Text × Bool × Bool) :=
  (serialiseWrittenAt r.writtenAt).bind fun written =>
    (verifyRecordHmac C keys r.recordHmac r.agentOutputsHash (pyStr r.decisionId.str) (pyStr r.guidelineVersionId.str)
      written).map fun valid => if valid then (true, [], false, true) else (false, hmacOnlyMismatch, false, false)

/-- The checks of `expected_keys` on a decoded payload. -/
def requireKeys {D : Type} [FloatOps D] (payload : PyVal D) : List Text → Except PyExc (PyVal D)
  | [] => .ok payload
  | k :: ks => (payload.isIn (pyStr k)).bind fun present =>
      if present then requireKeys payload ks
      else raise .valueError ("Decrypted payload missing expected key '".toList ++ k ++
        "'. Payload may be corrupted or from an incompatible version.".toList)

/-- `_download_and_decrypt_payload` after the download. -/
def decodePayload (keys : Keys) (encrypted : Bytes) (expectedKeys : List Text) : Except PyExc (PyVal D) :=
  (decryptPayload C keys encrypted).bind fun decrypted =>
    match utf8Decode decrypted with
    | none => raise .valueError "'utf-8' codec can't decode byte".toList
    | some text => (PyVal.loads text).bind fun payload => requireKeys payload expectedKeys

/-- `_download_and_decrypt_payload`. -/
def downloadAndDecryptPayload (s3Key : PyStr) (expectedKeys : List Text) : Except PyExc (PyVal D) :=
  (env.getObject s3Key).bind fun encrypted => decodePayload D C env.keys encrypted expectedKeys

variable {D}

/-- `_run_full_verification`. -/
def runFullVerification (keys : Keys) (r : AuditRecord) (agentOutputs : PyVal D) : Except PyExc (Bool × Text) :=
  verifyAuditRecordIntegrity C keys r.agentOutputsHash r.recordHmac agentOutputs (pyStr r.decisionId.str)
    (pyStr r.guidelineVersionId.str) r.writtenAt

def agentOutputsKey : Text := "agent_outputs".toList

variable (D)

/-- The payload of a record, where the record says that there is one and it can be read. -/
def payloadOf (r : AuditRecord) : Option (PyVal D) :=
  match r.payloadS3Key with
  | none => none
  | some key =>
    if key ≠ [] ∧ r.payloadS3Uploaded = true then
      match downloadAndDecryptPayload D C env key [agentOutputsKey] with
      | .ok payload => some payload
      | .error _ => none
    else none

/-- What a full verification is reported as. The flags are read off the text of its reason. -/
def CheckResult.ofFull : Bool × Text → CheckResult
  | (isValid, reason) =>
    { isValid := isValid
      failureReason := reason
      hashPassed := if isValid then true else !containsText "hash".toList (lower reason)
      hmacPassed := if isValid then true else !containsText "hmac".toList (lower reason)
      minioAvailable := true }

/-- What an HMAC-only verification is reported as. -/
def CheckResult.ofHmacOnly : Bool × Text × Bool × Bool → CheckResult
  | (isValid, reason, hashPassed, hmacPassed) =>
    { isValid := isValid
      failureReason := reason
      hashPassed := hashPassed
      hmacPassed := hmacPassed
      minioAvailable := false }

/-- Steps 2 and 3 of `verify_by_decision_id`. -/
def checkRecord (r : AuditRecord) : Except PyExc CheckResult :=
  match payloadOf D C env r with
  | some payload =>
    (payload.get (pyStr agentOutputsKey) (.dict [])).bind fun agentOutputs =>
      (runFullVerification C env.keys r agentOutputs).map .ofFull
  | none => (runHmacOnlyVerification C env.keys r).map .ofHmacOnly

/-- The report on a record. -/
def reportOf (now : DateTime) (decisionId : PyStr) (r : AuditRecord) (decision : Option Decision) (c : CheckResult) :
    VerificationResult where
  decisionId := decisionId
  applicationId := r.applicationId.str
  guidelineVersionId := r.guidelineVersionId.str
  writtenAt := r.writtenAt.isoformat
  outcome := decision.elim "UNKNOWN".toList fun d => d.outcome.value
  isValid := c.isValid
  hashCheckPassed := c.hashPassed
  hmacCheckPassed := c.hmacPassed
  minioPayloadAvailable := c.minioAvailable
  failureReason := c.failureReason
  agentOutputsHash := r.agentOutputsHash
  recordHmacPrefix := r.recordHmac.take 16
  verifiedAt := now.isoformat

/-- `verify_by_decision_id` on the database its flag picks. -/
def verifyByDecisionId (db : Database) (decisionId : PyStr) : Except PyExc VerificationResult :=
  (uuidOf decisionId).bind fun u =>
    (scalarOneOrNone (db.auditRecordsOf u)).bind fun
      | none => raise .valueError ("No audit record found for decision_id '".toList ++ (toText decisionId).getD [] ++
          "'. This decision may not have a compliance audit trail.".toList)
      | some r => (scalarOneOrNone (db.decisionsOf u)).bind fun decision =>
          (checkRecord D C env r).map (reportOf env.now decisionId r decision)

/-- The audit records of an application, by `written_at`. -/
def recordsOfApplication (db : Database) (u : Uuid) : List AuditRecord :=
  (db.auditRecords.filter (·.applicationId = u)).insertionSort fun a b => a.writtenAt.instant ≤ b.writtenAt.instant

/-- The loop of `verify_by_application_id`: a record whose verification raises is logged and left out. -/
def verifyAll (db : Database) : List AuditRecord → List VerificationResult
  | [] => []
  | r :: rs =>
    match verifyByDecisionId D C env db (pyStr r.decisionId.str) with
    | .ok result => result :: verifyAll db rs
    | .error _ => verifyAll db rs

/-- `verify_by_application_id`. -/
def verifyByApplicationId (db : Database) (applicationId : PyStr) : Except PyExc (List VerificationResult) :=
  (uuidOf applicationId).map fun u => verifyAll D C env db (recordsOfApplication db u)

end

/-! ## Reports -/

section

variable (now : DateTime) (d : PyStr) (r : AuditRecord) (decision : Option Decision) (c : CheckResult)

@[simp] theorem decisionId_reportOf : (reportOf now d r decision c).decisionId = d := rfl

@[simp] theorem isValid_reportOf : (reportOf now d r decision c).isValid = c.isValid := rfl

@[simp] theorem hashCheckPassed_reportOf : (reportOf now d r decision c).hashCheckPassed = c.hashPassed := rfl

@[simp] theorem hmacCheckPassed_reportOf : (reportOf now d r decision c).hmacCheckPassed = c.hmacPassed := rfl

end

@[simp] theorem hashPassed_ofHmacOnly (res : Bool × Text × Bool × Bool) :
    (CheckResult.ofHmacOnly res).hashPassed = res.2.2.1 := rfl

@[simp] theorem hmacPassed_ofHmacOnly (res : Bool × Text × Bool × Bool) :
    (CheckResult.ofHmacOnly res).hmacPassed = res.2.2.2 := rfl

@[simp] theorem isValid_ofHmacOnly (res : Bool × Text × Bool × Bool) :
    (CheckResult.ofHmacOnly res).isValid = res.1 := rfl

theorem hashPassed_ofFull (reason : Text) :
    (CheckResult.ofFull (false, reason)).hashPassed = !containsText "hash".toList (lower reason) := rfl

theorem hmacPassed_ofFull (reason : Text) :
    (CheckResult.ofFull (false, reason)).hmacPassed = !containsText "hmac".toList (lower reason) := rfl

section

variable {D : Type} [FloatOps D] {C : Crypto} {env : VerifyEnv} {db : Database}

theorem scalarOneOrNone_eq_some {α : Type} {xs : List α} {a : α} (h : scalarOneOrNone xs = .ok (some a)) :
    xs = [a] := by
  obtain _ | ⟨x, _ | ⟨y, xs⟩⟩ := xs
  · cases h
  · cases h
    rfl
  · exact absurd h (raise_ne_ok _ _ _)

/-- **What a returned report is about.** -/
theorem verifyByDecisionId_eq_ok {d : PyStr} {v : VerificationResult} (h : verifyByDecisionId D C env db d = .ok v) :
    ∃ u r decision c, uuidOf d = .ok u ∧ db.auditRecordsOf u = [r] ∧ scalarOneOrNone (db.decisionsOf u) = .ok decision ∧
      checkRecord D C env r = .ok c ∧ v = reportOf env.now d r decision c := by
  obtain ⟨u, hu, h⟩ := bind_eq_ok.mp h
  obtain ⟨o, ho, h⟩ := bind_eq_ok.mp h
  cases o with
  | none => exact absurd h (raise_ne_ok _ _ _)
  | some r =>
    obtain ⟨decision, hd, h⟩ := bind_eq_ok.mp h
    obtain ⟨c, hc, rfl⟩ := map_eq_ok.mp h
    exact ⟨u, r, decision, c, hu, scalarOneOrNone_eq_some ho, hd, hc, rfl⟩

/-- The report on a record that is the only one of its decision. -/
theorem verifyByDecisionId_of_record {d : PyStr} {u : Uuid} {r : AuditRecord} {decision : Option Decision}
    (hu : uuidOf d = .ok u) (hr : db.auditRecordsOf u = [r]) (hd : scalarOneOrNone (db.decisionsOf u) = .ok decision) :
    verifyByDecisionId D C env db d = (checkRecord D C env r).map (reportOf env.now d r decision) := by
  rw [verifyByDecisionId, hu, ok_bind, hr, show scalarOneOrNone [r] = .ok (some r) from rfl, ok_bind]
  simp only [hd, ok_bind]

/-- The record of a report belongs to the decision asked for. -/
theorem mem_auditRecordsOf {u : Uuid} {r : AuditRecord} (h : db.auditRecordsOf u = [r]) :
    r ∈ db.auditRecords ∧ r.decisionId = u := by
  have := List.mem_filter.mp (h ▸ List.mem_singleton_self r : r ∈ db.auditRecordsOf u)
  simpa using this

/-! ## What the checks find -/

/-- The stored HMAC is that of the message with hash `h` and the ids and the time of the record. -/
def HmacAccepts (C : Crypto) (keys : Keys) (r : AuditRecord) (h : Text) : Prop :=
  ∃ written, serialiseWrittenAt r.writtenAt = .ok written ∧
    HmacMatches C keys r.recordHmac (utf8 (hmacText h r.decisionId.str r.guidelineVersionId.str written))

/-- The comparison of the stored HMAC can be made. -/
def HmacCheckable (keys : Keys) (r : AuditRecord) : Prop :=
  returned (serialiseWrittenAt r.writtenAt) = true ∧ returned keys.server = true ∧ isAscii (lower r.recordHmac) = true

/-- What `verify_record_hmac` returns for a record. -/
theorem verifyRecordHmac_of_record {keys : Keys} {r : AuditRecord} {h written : Text} {v : Bool}
    (hw : serialiseWrittenAt r.writtenAt = .ok written)
    (hv : verifyRecordHmac C keys r.recordHmac h (pyStr r.decisionId.str) (pyStr r.guidelineVersionId.str) written =
      .ok v) : v = true ↔ HmacAccepts C keys r h := by
  have hm := buildHmacMessage_pyStr h r.decisionId.str r.guidelineVersionId.str written
  have hiff : verifyRecordHmac C keys r.recordHmac h _ _ written = .ok true ↔ _ := verifyRecordHmac_eq_true_iff hm
  rw [hv, Except.ok.injEq] at hiff
  refine hiff.trans ⟨fun h => ⟨written, hw, h⟩, ?_⟩
  rintro ⟨written', hw', h⟩
  rw [hw] at hw'
  cases hw'
  exact h

theorem hmacCheckable_of_accepts {keys : Keys} {r : AuditRecord} {h : Text} (ha : HmacAccepts C keys r h) :
    HmacCheckable keys r := by
  obtain ⟨written, hw, hm⟩ := ha
  obtain ⟨key, hk, -⟩ := id hm
  exact ⟨by rw [hw]; rfl, by rw [hk]; rfl, isAscii_of_hmacMatches hm⟩

/-- A record has one hash that its HMAC accepts. -/
theorem HmacAccepts.hash_unique (hb : C.HmacBinding) {keys : Keys} {r : AuditRecord} {s t : Text}
    (hs : HmacAccepts C keys r s) (ht : HmacAccepts C keys r t) : s = t := by
  obtain ⟨written, hw, hs⟩ := hs
  obtain ⟨written', hw', ht⟩ := ht
  cases hw.symm.trans hw'
  exact List.append_cancel_right (utf8_injective (hs.unique hb ht))

/-- **The HMAC-only check returns for a record exactly when the comparison can be made.** -/
theorem returned_runHmacOnly_iff {keys : Keys} {r : AuditRecord} :
    returned (runHmacOnlyVerification C keys r) = true ↔ HmacCheckable keys r := by
  unfold runHmacOnlyVerification HmacCheckable
  cases hw : serialiseWrittenAt r.writtenAt with
  | error e => simp
  | ok written =>
    rw [ok_bind, returned_map, verifyRecordHmac_isOk_iff (buildHmacMessage_pyStr _ _ _ _)]
    simp

/-- **What the HMAC-only check returns.** -/
theorem runHmacOnly_eq_ok {keys : Keys} {r : AuditRecord} {res : Bool × Text × Bool × Bool}
    (h : runHmacOnlyVerification C keys r = .ok res) :
    (HmacAccepts C keys r r.agentOutputsHash ∧ res = (true, [], false, true)) ∨
      (¬ HmacAccepts C keys r r.agentOutputsHash ∧ res = (false, hmacOnlyMismatch, false, false)) := by
  obtain ⟨written, hw, h⟩ := bind_eq_ok.mp h
  obtain ⟨v, hv, rfl⟩ := map_eq_ok.mp h
  have hiff := verifyRecordHmac_of_record hw hv
  cases v with
  | true => exact .inl ⟨hiff.mp rfl, rfl⟩
  | false => exact .inr ⟨fun ha => absurd (hiff.mpr ha) (by simp), rfl⟩

theorem runHmacOnly_of_accepts {keys : Keys} {r : AuditRecord} (h : HmacAccepts C keys r r.agentOutputsHash) :
    runHmacOnlyVerification C keys r = .ok (true, [], false, true) := by
  obtain ⟨res, hr⟩ := returned_iff.mp (returned_runHmacOnly_iff (C := C).mpr (hmacCheckable_of_accepts h))
  rcases runHmacOnly_eq_ok hr with ⟨-, rfl⟩ | ⟨hn, -⟩
  · exact hr
  · exact absurd h hn

theorem runHmacOnly_valid_iff {keys : Keys} {r : AuditRecord} :
    runHmacOnlyVerification C keys r = .ok (true, [], false, true) ↔ HmacAccepts C keys r r.agentOutputsHash := by
  refine ⟨fun h => ?_, runHmacOnly_of_accepts⟩
  rcases runHmacOnly_eq_ok h with ⟨ha, -⟩ | ⟨-, he⟩
  · exact ha
  · cases he

/-- **What the full check returns.** -/
theorem runFull_eq_ok {keys : Keys} {r : AuditRecord} {o : PyVal D} {res : Bool × Text}
    (h : runFullVerification C keys r o = .ok res) : o.truthy = true ∧ ∃ b, canonicalJson o = .ok b ∧
      ((C.sha256 b ≠ lower r.agentOutputsHash ∧ res = (false, hashMismatch r.agentOutputsHash (C.sha256 b))) ∨
        (C.sha256 b = lower r.agentOutputsHash ∧ HmacAccepts C keys r (C.sha256 b) ∧ res = (true, [])) ∨
        (C.sha256 b = lower r.agentOutputsHash ∧ ¬ HmacAccepts C keys r (C.sha256 b) ∧
          res = (false, hmacMismatch))) := by
  obtain ⟨ht, ha, b, hb⟩ := hash_of_verifyAuditRecordIntegrity h
  rw [runFullVerification, verifyAuditRecordIntegrity_of_hash ht hb ha] at h
  refine ⟨ht, b, hb, ?_⟩
  split at h
  · rename_i hs
    obtain ⟨written, hw, h⟩ := bind_eq_ok.mp h
    obtain ⟨v, hv, rfl⟩ := map_eq_ok.mp h
    have hiff := verifyRecordHmac_of_record hw hv
    cases v with
    | true => exact .inr (.inl ⟨hs, hiff.mp rfl, rfl⟩)
    | false => exact .inr (.inr ⟨hs, fun ha => absurd (hiff.mpr ha) (by simp), rfl⟩)
  · rename_i hs
    exact .inl ⟨hs, (Except.ok.inj h).symm⟩

/-- **When the full check returns.** -/
theorem returned_runFull_iff {keys : Keys} {r : AuditRecord} {o : PyVal D} {b : Bytes} (hb : canonicalJson o = .ok b) :
    returned (runFullVerification C keys r o) = true ↔ o.truthy = true ∧ isAscii (lower r.agentOutputsHash) = true ∧
      (C.sha256 b = lower r.agentOutputsHash → HmacCheckable keys r) := by
  constructor
  · intro h
    obtain ⟨res, hr⟩ := returned_iff.mp h
    obtain ⟨ht, ha, -⟩ := hash_of_verifyAuditRecordIntegrity hr
    refine ⟨ht, ha, fun hs => ?_⟩
    rw [runFullVerification, verifyAuditRecordIntegrity_of_hash ht hb ha, if_pos hs] at h
    obtain ⟨written, hw, h⟩ := returned_bind.mp h
    rw [returned_map, verifyRecordHmac_isOk_iff (buildHmacMessage_pyStr _ _ _ _)] at h
    exact ⟨by rw [hw]; rfl, h⟩
  · rintro ⟨ht, ha, hc⟩
    rw [runFullVerification, verifyAuditRecordIntegrity_of_hash ht hb ha]
    split
    · rename_i hs
      obtain ⟨hw, hk, hm⟩ := hc hs
      obtain ⟨written, hw⟩ := returned_iff.mp hw
      rw [hw, ok_bind, returned_map, verifyRecordHmac_isOk_iff (buildHmacMessage_pyStr _ _ _ _)]
      exact ⟨hk, hm⟩
    · rfl

/-- The agent outputs of a payload that was read can be written. -/
theorem canonicalJson_of_payload {r : AuditRecord} {payload o : PyVal D} (hp : payloadOf D C env r = some payload)
    (ho : payload.get (pyStr agentOutputsKey) (.dict []) = .ok o) : ∃ b, canonicalJson o = .ok b := by
  unfold payloadOf at hp
  split at hp
  · cases hp
  · split at hp
    · split at hp
      · rename_i hd
        cases hp
        obtain ⟨e, -, hd⟩ := bind_eq_ok.mp hd
        obtain ⟨plain, -, hd⟩ := bind_eq_ok.mp hd
        split at hd
        · exact absurd hd (raise_ne_ok _ _ _)
        · obtain ⟨v, hv, hd⟩ := bind_eq_ok.mp hd
          obtain ⟨present, -, hd⟩ := bind_eq_ok.mp hd
          split at hd
          · cases hd
            obtain ⟨u, hu⟩ := PyVal.dumps_of_get hv ho
            exact ⟨utf8 u, by rw [canonicalJson, hu]; rfl⟩
          · exact absurd hd (raise_ne_ok _ _ _)
      · cases hp
    · cases hp

end

end ComplianceLoop
