import ComplianceLoop.Security.Encryption

/-!
# `audit/hasher.py`

The fields that protect an audit record and the check of both. `verifyAuditRecordIntegrity_eq_valid_iff` says when a
record is accepted; `verifyAuditRecordIntegrity_of_hash` is everything the check can do once the outputs are hashed.
-/

set_option autoImplicit false

namespace ComplianceLoop

open PyLib

section

variable {D : Type} [FloatOps D] (C : Crypto) (keys : Keys)

/-- `compute_agent_outputs_hash`. -/
def computeAgentOutputsHash (agentOutputs : PyVal D) : Except PyExc Text := hashAgentOutputs C agentOutputs

/-- `_serialise_written_at`. -/
def serialiseWrittenAt (writtenAt : DateTime) : Except PyExc Text :=
  match writtenAt.astimezoneUtc with
  | some utc => .ok utc.isoformat
  | none => raise .overflowError "date value out of range".toList

/-- `compute_audit_hmac`. -/
def computeAuditHmac (agentOutputsHash : Text) (decisionId guidelineVersionId : PyStr) (writtenAt : DateTime) :
    Except PyExc Text :=
  (serialiseWrittenAt writtenAt).bind fun written =>
    computeRecordHmac C keys agentOutputsHash decisionId guidelineVersionId written

/-- The reason given when the hashes differ. -/
def hashMismatch (stored recomputed : Text) : Text :=
  "agent_outputs_hash mismatch. Stored: ".toList ++ stored.take 16 ++ "... Recomputed: ".toList ++ recomputed.take 16 ++
    "... The agent outputs have been tampered with.".toList

/-- The reason given when the HMAC does not verify. -/
def hmacMismatch : Text :=
  ("record_hmac verification failed. The audit record metadata (decision_id, guideline_version_id, or " ++
    "written_at) may have been tampered with, or the wrong signing key is being used.").toList

/-- `verify_audit_record_integrity`. -/
def verifyAuditRecordIntegrity (storedAgentOutputsHash storedRecordHmac : Text) (agentOutputs : PyVal D)
    (decisionId guidelineVersionId : PyStr) (writtenAt : DateTime) : Except PyExc (Bool × Text) :=
  (computeAgentOutputsHash C agentOutputs).bind fun recomputedHash =>
    (canonicalJson agentOutputs).bind fun data =>
      (verifySha256 C data storedAgentOutputsHash).bind fun hashValid =>
        if hashValid then
          (serialiseWrittenAt writtenAt).bind fun written =>
            (verifyRecordHmac C keys storedRecordHmac recomputedHash decisionId guidelineVersionId written).map
              fun hmacValid => if hmacValid then (true, []) else (false, hmacMismatch)
        else .ok (false, hashMismatch storedAgentOutputsHash recomputedHash)

/-- `compute_payload_s3_key`; `%Y` is not padded on Linux. -/
def computePayloadS3Key (decisionId : PyStr) (writtenAt : DateTime) : PyStr :=
  pyStr ("audit/".toList ++ decimal writtenAt.date.year ++ '/' :: (pad 2 writtenAt.date.month ++ ['/'])) ++
    (decisionId ++ pyStr ".json.enc".toList)

end

/-! ## The serialised time -/

/-- Values of one instant have one text. -/
theorem serialiseWrittenAt_congr {v w : DateTime} (h : v.instant = w.instant) :
    serialiseWrittenAt v = serialiseWrittenAt w := by
  rw [serialiseWrittenAt, DateTime.astimezoneUtc_congr h, serialiseWrittenAt]

theorem serialiseWrittenAt_utc {w : DateTime} (h : w.tz = some utcOffset) :
    serialiseWrittenAt w = .ok w.isoformat := by
  rw [serialiseWrittenAt, DateTime.astimezoneUtc_of_utc h]

/-- **Values of one text have one instant.** -/
theorem serialiseWrittenAt_inj {v w : DateTime} {s : Text} (hv : serialiseWrittenAt v = .ok s)
    (hw : serialiseWrittenAt w = .ok s) : v.instant = w.instant := by
  unfold serialiseWrittenAt at hv hw
  split at hv
  · rename_i a ha
    split at hw
    · rename_i b hb
      obtain ⟨h1, h2⟩ := DateTime.instant_astimezoneUtc ha
      obtain ⟨h3, h4⟩ := DateTime.instant_astimezoneUtc hb
      have he : a = b := DateTime.isoformat_injective_utc h2 h4 ((Except.ok.inj hv).trans (Except.ok.inj hw).symm)
      rw [← h1, ← h3, he]
    · exact absurd hw (raise_ne_ok _ _ _)
  · exact absurd hv (raise_ne_ok _ _ _)

theorem pipe_notMem_serialiseWrittenAt {w : DateTime} {s : Text} (h : serialiseWrittenAt w = .ok s) : '|' ∉ s := by
  unfold serialiseWrittenAt at h
  split at h
  · cases h
    exact DateTime.pipe_notMem_isoformat _
  · exact absurd h (raise_ne_ok _ _ _)

/-! ## The integrity check -/

variable {D : Type} [FloatOps D] {C : Crypto} {keys : Keys}

/-- What was signed: an HMAC under the current key of a message that could be encoded. -/
theorem computeAuditHmac_eq_ok {h m : Text} {d g : PyStr} {w : DateTime}
    (hm : computeAuditHmac C keys h d g w = .ok m) : ∃ key written message, keys.server = .ok key ∧
      serialiseWrittenAt w = .ok written ∧ buildHmacMessage h d g written = .ok message ∧ m = C.hmac key message := by
  obtain ⟨written, hw, hm⟩ := bind_eq_ok.mp hm
  obtain ⟨key, hk, hm⟩ := bind_eq_ok.mp hm
  obtain ⟨message, hb, rfl⟩ := map_eq_ok.mp hm
  exact ⟨key, written, message, hk, hw, hb, rfl⟩

/-- **Everything the check can return for outputs that could be hashed.** -/
theorem verifyAuditRecordIntegrity_of_hash {stored hmac : Text} {o : PyVal D} {d g : PyStr} {w : DateTime} {b : Bytes}
    (ht : o.truthy = true) (hb : canonicalJson o = .ok b) (ha : isAscii (lower stored) = true) :
    verifyAuditRecordIntegrity C keys stored hmac o d g w =
      if C.sha256 b = lower stored then
        (serialiseWrittenAt w).bind fun written =>
          (verifyRecordHmac C keys hmac (C.sha256 b) d g written).map fun v =>
            if v then (true, []) else (false, hmacMismatch)
      else .ok (false, hashMismatch stored (C.sha256 b)) := by
  have hh : computeAgentOutputsHash C o = .ok (C.sha256 b) := hashAgentOutputs_eq_ok.mpr ⟨ht, b, hb, rfl⟩
  rw [verifyAuditRecordIntegrity, hh, ok_bind, hb, ok_bind, verifySha256_canonicalJson hb ha, ok_bind]
  simp only [beq_iff_eq]

/-- What a check that returned tells about its inputs. -/
theorem hash_of_verifyAuditRecordIntegrity {stored hmac : Text} {o : PyVal D} {d g : PyStr} {w : DateTime}
    {r : Bool × Text} (h : verifyAuditRecordIntegrity C keys stored hmac o d g w = .ok r) :
    o.truthy = true ∧ isAscii (lower stored) = true ∧ ∃ b, canonicalJson o = .ok b := by
  obtain ⟨t, hh, h⟩ := bind_eq_ok.mp h
  obtain ⟨ht, b, hb, rfl⟩ := hashAgentOutputs_eq_ok.mp hh
  refine ⟨ht, ?_, b, hb⟩
  rw [hb, ok_bind] at h
  obtain ⟨v, hv, -⟩ := bind_eq_ok.mp h
  by_contra ha
  have := verifySha256_nonAscii (C := C) hb (Bool.eq_false_iff.mpr ha)
  rw [hv] at this
  cases this

/-- **When a record is accepted.** -/
theorem verifyAuditRecordIntegrity_eq_valid_iff {stored hmac : Text} {o : PyVal D} {d g : PyStr} {w : DateTime}
    {reason : Text} : verifyAuditRecordIntegrity C keys stored hmac o d g w = .ok (true, reason) ↔
      reason = [] ∧ o.truthy = true ∧ ∃ b written, canonicalJson o = .ok b ∧ C.sha256 b = lower stored ∧
        serialiseWrittenAt w = .ok written ∧ verifyRecordHmac C keys hmac (C.sha256 b) d g written = .ok true := by
  constructor
  · intro h
    obtain ⟨ht, ha, b, hb⟩ := hash_of_verifyAuditRecordIntegrity h
    rw [verifyAuditRecordIntegrity_of_hash ht hb ha] at h
    split at h
    · rename_i hs
      obtain ⟨written, hw, h⟩ := bind_eq_ok.mp h
      obtain ⟨v, hv, h⟩ := map_eq_ok.mp h
      cases v with
      | true => exact ⟨(Prod.mk.inj h).2.symm, ht, b, written, hb, hs, hw, hv⟩
      | false => simp at h
    · simp at h
  · rintro ⟨rfl, ht, b, written, hb, hs, hw, hv⟩
    have ha : isAscii (lower stored) = true := hs ▸ Crypto.isAscii_sha256 b
    rw [verifyAuditRecordIntegrity_of_hash ht hb ha, if_pos hs, hw, ok_bind, hv]
    rfl

end ComplianceLoop
