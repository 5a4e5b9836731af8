import ComplianceLoop.Audit.Reports
import ComplianceLoop.Audit.WriteNode

/-!
# Reports on altered records

What a report says about a record whose row, payload or object was altered. A payload that cannot be decoded is treated
like an unreachable store, so the record is still reported as valid on its HMAC (`noValidReport_iff`). The flags of a
full verification are read off its reason, which names the hash only, so the HMAC flag is set although the HMAC was
never compared (`flagsTruthful_iff`). A check that raises takes its record out of the report on the application
(`oneReportEach_iff`). The full check folds the case of the stored hash, the HMAC-only check signs it as it is
(`hmacOnly_of_full_iff`).
-/

set_option autoImplicit false

namespace ComplianceLoop

open PyLib

variable {D : Type} [FloatOps D] {C : Crypto} {env : VerifyEnv} {db : Database} {r : AuditRecord}

/-! ## A stored record -/

namespace Sample

def database (r : AuditRecord) : Database where
  auditRecords := [r]
  decisions := [⟨uuid 1, .approve⟩]
  guidelineVersions := [⟨uuid 3, []⟩]
  applications := [uuid 2]

theorem lowerHex_hash : LowerHex hash := lowerHex_hexBytes _

theorem lowerHex_recordHmac (stored signed : Text) : LowerHex (recordWith stored signed).recordHmac :=
  Sample.crypto.hmac_lowerHex serverKey (message signed (uuid 1).str)

theorem keyed_database (r : AuditRecord) : (database r).Keyed := ⟨List.nodup_singleton _, List.nodup_singleton _⟩

/-- The object with `{"agent_outputs":{"document":{"signal":false}}}`: another payload than the recorded one. -/
def otherObject : Bytes :=
  version :: (nonce.val ++ crypto.aesEncrypt aesKey nonce.val (utf8 (shortPayloadText signalFalse)))

/-- What the agent outputs of a decoded object are written as. -/
def outputsText (object : Bytes) : Except PyExc Bytes :=
  (decodePayload WholeFloat Sample.crypto keys object [agentOutputsKey]).bind fun payload =>
    (payload.get (pyStr agentOutputsKey) (.dict [])).bind canonicalJson

/-- What they are written as for the other payload. -/
def otherOutputs : { b : Bytes // outputsText otherObject = .ok b } := ⟨utf8 signalFalse, by decide +kernel⟩

end Sample

/-! ## An altered object -/

/-- The object is a ciphertext of a payload whose agent outputs have the recorded canonical JSON, which is the one with
the stored hash. -/
def HoldsRecordedJson (D : Type) [FloatOps D] (C : Crypto) (keys : Keys) (r : AuditRecord) (object : Bytes) : Prop :=
  ∃ (payload o : PyVal D) (b : Bytes), decodePayload D C keys object [agentOutputsKey] = .ok payload ∧
    payload.get (pyStr agentOutputsKey) (.dict []) = .ok o ∧ canonicalJson o = .ok b ∧
      C.sha256 b = lower r.agentOutputsHash

theorem payloadOf_of_object {k : PyStr} {object : Bytes} (hu : r.payloadS3Uploaded = true)
    (hk : r.payloadS3Key = some k) (hg : env.getObject k = .ok object) :
    payloadOf D C env r =
      if k = [] then none else (decodePayload D C env.keys object [agentOutputsKey]).toOption := by
  simp only [payloadOf, hk, downloadAndDecryptPayload, hg, ok_bind, hu, and_true, ne_eq, ite_not]
  cases decodePayload D C env.keys object [agentOutputsKey] <;> rfl

/-- **An object without the recorded payload never lets the record be valid, exactly when the object can be decoded all
the same or the HMAC does not match either.** -/
theorem noValidReport_iff {k : PyStr} {object : Bytes} (hdb : db.Keyed) (hr : r ∈ db.auditRecords)
    (hu : r.payloadS3Uploaded = true) (hk : r.payloadS3Key = some k) (hg : env.getObject k = .ok object)
    (hbad : ¬ HoldsRecordedJson D C env.keys r object) :
    (∀ d v, uuidOf d = .ok r.decisionId → verifyByDecisionId D C env db d = .ok v → v.isValid = false) ↔
      (k ≠ [] ∧ returned (decodePayload D C env.keys object [agentOutputsKey]) = true) ∨
        ¬ HmacAccepts C env.keys r r.agentOutputsHash := by
  have hnone : (∀ d v, uuidOf d = .ok r.decisionId → verifyByDecisionId D C env db d = .ok v → v.isValid = false) ↔
      ¬ Intact D C env r := by
    rw [← exists_validReport_iff hdb hr]
    simp only [not_exists, not_and, Bool.not_eq_true]
  have hp := payloadOf_of_object (D := D) (C := C) hu hk hg
  rw [hnone, Intact]
  by_cases hkey : k = []
  · rw [if_pos hkey] at hp
    simp [hp, hkey]
  · rw [if_neg hkey] at hp
    cases hd : decodePayload D C env.keys object [agentOutputsKey] with
    | error e =>
      replace hp : payloadOf D C env r = none := by rw [hp, hd]; rfl
      simp [hp]
    | ok payload =>
      replace hp : payloadOf D C env r = some payload := by rw [hp, hd]; rfl
      have hn : ¬ ∃ o b, OutputsOf D C env r o ∧ canonicalJson o = .ok b ∧ o.truthy = true ∧
          C.sha256 b = lower r.agentOutputsHash ∧ HmacAccepts C env.keys r (lower r.agentOutputsHash) := by
        rintro ⟨o, b, ⟨payload', hp', ho⟩, hb, -, hs, -⟩
        cases hp.symm.trans hp'
        exact hbad ⟨payload, o, b, hd, ho, hb, hs⟩
      rw [if_pos (by rw [hp]; rfl)]
      exact iff_of_true hn (.inl ⟨hkey, rfl⟩)

theorem Sample.not_holdsRecordedJson {r : AuditRecord} {object : Bytes}
    (h : ∀ b, Sample.outputsText object = .ok b → Sample.crypto.sha256 b ≠ lower r.agentOutputsHash) :
    ¬ HoldsRecordedJson WholeFloat Sample.crypto Sample.keys r object := by
  rintro ⟨payload, o, b, hd, ho, hb, hs⟩
  exact h b (by rw [Sample.outputsText, hd, ok_bind, ho, ok_bind, hb]) hs

/-- The object with another payload is never reported as valid. -/
theorem noValidReport_iff_otherObject :
    (∀ d v, uuidOf d = .ok (Sample.uuid 1) →
        verifyByDecisionId WholeFloat Sample.crypto (Sample.verifyEnv Sample.otherObject)
          (Sample.database Sample.record)
          d = .ok v → v.isValid = false) ↔
      (pyStr "k".toList ≠ [] ∧
          returned (decodePayload WholeFloat Sample.crypto Sample.keys Sample.otherObject [agentOutputsKey]) = true) ∨
        ¬ HmacAccepts Sample.crypto Sample.keys Sample.record Sample.hash :=
  noValidReport_iff (Sample.keyed_database _) (List.mem_singleton_self Sample.record) rfl rfl rfl
    (Sample.not_holdsRecordedJson (r := Sample.record) fun b hb => by
      obtain rfl := Except.ok.inj (Sample.otherOutputs.property.symm.trans hb)
      decide +kernel)

/-- An object of one octet leaves a record valid that has a payload. -/
theorem corrupt_object_valid :
    ¬ ∀ (env : VerifyEnv) (db : Database) (r : AuditRecord) (k : PyStr) (object : Bytes), db.Keyed →
      r ∈ db.auditRecords → r.payloadS3Uploaded = true → r.payloadS3Key = some k → env.getObject k = .ok object →
      ¬ HoldsRecordedJson WholeFloat Sample.crypto env.keys r object →
      ∀ d v, uuidOf d = .ok r.decisionId → verifyByDecisionId WholeFloat Sample.crypto env db d = .ok v →
        v.isValid = false := by
  intro h
  have hvalid : (verifyByDecisionId WholeFloat Sample.crypto (Sample.verifyEnv [0]) (Sample.database Sample.record)
      (pyStr (Sample.uuid 1).str)).map (·.isValid) = .ok true := by decide +kernel
  have herr : returned (Sample.outputsText [0]) = false := by decide +kernel
  obtain ⟨v, hv, hval⟩ := map_eq_ok.mp hvalid
  have := h (Sample.verifyEnv [0]) _ Sample.record _ [0] (Sample.keyed_database _) (List.mem_singleton_self _) rfl rfl
    rfl (Sample.not_holdsRecordedJson fun b hb => by rw [hb] at herr; cases herr) _ v (uuidOf_str _) hv
  rw [hval] at this
  cases this

/-! ## The flags -/

/-- The payload that was read has the stored hash. -/
def HashHolds (D : Type) [FloatOps D] (C : Crypto) (env : VerifyEnv) (r : AuditRecord) : Prop :=
  ∃ o b, OutputsOf D C env r o ∧ canonicalJson o = .ok b ∧ C.sha256 b = r.agentOutputsHash

/-- Both flags of a report are truthful. -/
def FlagsTruthful (D : Type) [FloatOps D] (C : Crypto) (env : VerifyEnv) (r : AuditRecord) (v : VerificationResult) :
    Prop :=
  (v.hashCheckPassed = true → HashHolds D C env r) ∧
    (v.hmacCheckPassed = true → HmacAccepts C env.keys r r.agentOutputsHash)

/-- **The flags are truthful unless the payload that was read has another hash and the HMAC does not match.** -/
theorem flagsTruthful_iff (hdb : db.Keyed) (hr : r ∈ db.auditRecords) (hx : LowerHex r.agentOutputsHash) :
    (∀ d v, uuidOf d = .ok r.decisionId → verifyByDecisionId D C env db d = .ok v → FlagsTruthful D C env r v) ↔
      HmacAccepts C env.keys r r.agentOutputsHash ∨
        ¬ ∃ o b, OutputsOf D C env r o ∧ o.truthy = true ∧ canonicalJson o = .ok b ∧
          C.sha256 b ≠ r.agentOutputsHash := by
  have hl := lower_of_lowerHex hx
  constructor
  · intro h
    rw [or_iff_not_imp_right, not_not]
    rintro ⟨o, b, ho, ht, hb, hn⟩
    -- the report on such a record has the flag of the HMAC
    have hfull : runFullVerification C env.keys r o = .ok (false, hashMismatch r.agentOutputsHash (C.sha256 b)) := by
      rw [runFullVerification, verifyAuditRecordIntegrity_of_hash ht hb (by rw [hl]; exact isAscii_of_lowerHex hx),
        if_neg (by rwa [hl])]
    have hc := checkRecord_of_outputs ho
    rw [hfull, ok_map] at hc
    obtain ⟨decision, he⟩ := verifyByDecisionId_of_mem D C env hdb hr (uuidOf_str r.decisionId)
    rw [hc, ok_map] at he
    have hflag := (h _ _ (uuidOf_str r.decisionId) he).2
    rw [hmacCheckPassed_reportOf, hmacPassed_ofFull_hashMismatch hx (C.sha256_lowerHex b)] at hflag
    exact hflag rfl
  · intro h d v hd hv
    obtain ⟨decision, he⟩ := verifyByDecisionId_of_mem D C env hdb hr hd
    rw [he] at hv
    obtain ⟨c, hc, rfl⟩ := map_eq_ok.mp hv
    by_cases hp : (payloadOf D C env r).isSome = true
    · obtain ⟨o, ho⟩ := outputsOf_of_checkRecord hp hc
      rw [checkRecord_of_outputs ho] at hc
      obtain ⟨res, hres, rfl⟩ := map_eq_ok.mp hc
      obtain ⟨ht, b, hb, hcases⟩ := runFull_eq_ok hres
      rw [hl] at hcases
      rcases hcases with ⟨hn, rfl⟩ | ⟨hs, ha, rfl⟩ | ⟨hs, hna, rfl⟩
      · refine ⟨fun hf => ?_, fun _ => h.resolve_right (not_not_intro ⟨o, b, ho, ht, hb, hn⟩)⟩
        rw [hashCheckPassed_reportOf, hashPassed_ofFull_hashMismatch] at hf
        cases hf
      · exact ⟨fun _ => ⟨o, b, ho, hb, hs⟩, fun _ => hs ▸ ha⟩
      · refine ⟨fun _ => ⟨o, b, ho, hb, hs⟩, fun hf => ?_⟩
        rw [hmacCheckPassed_reportOf, hmacPassed_ofFull_hmacMismatch] at hf
        cases hf
    · rw [checkRecord_of_none (by simpa using hp)] at hc
      obtain ⟨res, hres, rfl⟩ := map_eq_ok.mp hc
      rcases runHmacOnly_eq_ok hres with ⟨ha, rfl⟩ | ⟨-, rfl⟩
      · exact ⟨fun hf => absurd hf (by simp), fun _ => ha⟩
      · exact ⟨fun hf => absurd hf (by simp), fun hf => absurd hf (by simp)⟩

/-- The flags of a record whose payload was replaced and whose HMAC is its own. -/
theorem flagsTruthful_iff_otherObject :
    (∀ d v, uuidOf d = .ok (Sample.uuid 1) →
        verifyByDecisionId WholeFloat Sample.crypto (Sample.verifyEnv Sample.otherObject)
          (Sample.database Sample.record)
          d = .ok v → FlagsTruthful WholeFloat Sample.crypto (Sample.verifyEnv Sample.otherObject) Sample.record v) ↔
      HmacAccepts Sample.crypto Sample.keys Sample.record Sample.hash ∨
        ¬ ∃ o b, OutputsOf WholeFloat Sample.crypto (Sample.verifyEnv Sample.otherObject) Sample.record o ∧
          o.truthy = true ∧ canonicalJson o = .ok b ∧ Sample.crypto.sha256 b ≠ Sample.hash :=
  flagsTruthful_iff (Sample.keyed_database _) (List.mem_singleton_self Sample.record) Sample.lowerHex_hash

/-- A record with the HMAC of another hash and with another payload is reported with the HMAC flag set. -/
theorem hmac_flag_untruthful :
    ¬ ∀ (env : VerifyEnv) (db : Database) (r : AuditRecord), db.Keyed → r ∈ db.auditRecords →
      LowerHex r.agentOutputsHash → LowerHex r.recordHmac →
      ∀ d v, uuidOf d = .ok r.decisionId → verifyByDecisionId WholeFloat Sample.crypto env db d = .ok v →
        FlagsTruthful WholeFloat Sample.crypto env r v := by
  intro h
  have hflag : (verifyByDecisionId WholeFloat Sample.crypto (Sample.verifyEnv Sample.otherObject)
      (Sample.database (Sample.recordWith Sample.hash [])) (pyStr (Sample.uuid 1).str)).map (·.hmacCheckPassed) =
        .ok true := by decide +kernel
  obtain ⟨v, hv, hf⟩ := map_eq_ok.mp hflag
  have ha := (h _ _ _ (Sample.keyed_database _) (List.mem_singleton_self _) Sample.lowerHex_hash
    (Sample.lowerHex_recordHmac Sample.hash []) _ v (uuidOf_str _) hv).2 hf
  exact absurd (runHmacOnly_of_accepts ha) (by decide +kernel)

/-! ## The reports on an application -/

/-- The report is on this record, and says that it is valid exactly when it is intact. -/
def ReportOn (D : Type) [FloatOps D] (C : Crypto) (env : VerifyEnv) (r : AuditRecord) (v : VerificationResult) : Prop :=
  v.decisionId = pyStr r.decisionId.str ∧ (v.isValid = true ↔ Intact D C env r)

variable (D C env)

/-- The step of the loop: a report for a record that is checkable, none for any other. -/
theorem verifyAll_cons (hdb : db.Keyed) (hr : r ∈ db.auditRecords) (rs : List AuditRecord) :
    (Checkable D C env r ∧ ∃ v, ReportOn D C env r v ∧ verifyAll D C env db (r :: rs) = v :: verifyAll D C env db rs) ∨
      (¬ Checkable D C env r ∧ verifyAll D C env db (r :: rs) = verifyAll D C env db rs) := by
  obtain ⟨decision, he⟩ := verifyByDecisionId_of_mem D C env hdb hr (uuidOf_str r.decisionId)
  rw [verifyAll, he, ← returned_checkRecord_iff]
  cases hc : checkRecord D C env r with
  | error e => exact .inr ⟨Bool.false_ne_true, rfl⟩
  | ok c => exact .inl ⟨rfl, _, ⟨decisionId_reportOf _ _ _ _ _, isValid_iff hc⟩, rfl⟩

theorem length_verifyAll_le (db : Database) (rs : List AuditRecord) :
    (verifyAll D C env db rs).length ≤ rs.length := by
  induction rs with
  | nil => exact le_rfl
  | cons r rs ih =>
    rw [verifyAll]
    split
    · simpa using ih
    · exact ih.trans (Nat.le_succ _)

/-- **The loop gives one report for each record exactly when all are checkable.** -/
theorem forall₂_verifyAll_iff (hdb : db.Keyed) (rs : List AuditRecord) (hmem : ∀ r ∈ rs, r ∈ db.auditRecords) :
    List.Forall₂ (ReportOn D C env) rs (verifyAll D C env db rs) ↔ ∀ r ∈ rs, Checkable D C env r := by
  induction rs with
  | nil => simp [verifyAll]
  | cons r rs ih =>
    replace ih := ih fun x hx => hmem x (List.mem_cons_of_mem _ hx)
    rcases verifyAll_cons D C env hdb (hmem r List.mem_cons_self) rs with
      ⟨hc, v, hv, he⟩ | ⟨hc, he⟩
    · rw [he, List.forall₂_cons, List.forall_mem_cons, ih]
      simp [hc, hv]
    · rw [he]
      refine iff_of_false (fun h => ?_) fun h => hc (h r List.mem_cons_self)
      have hlen := h.length_eq
      have hle := length_verifyAll_le D C env db rs
      rw [List.length_cons] at hlen
      omega

variable {D C env}

/-- **Every audit record of an application has its report exactly when all of them are checkable.** -/
theorem oneReportEach_iff {a : PyStr} {u : Uuid} (hdb : db.Keyed) (ha : uuidOf a = .ok u) :
    (∃ reports, verifyByApplicationId D C env db a = .ok reports ∧
        List.Forall₂ (ReportOn D C env) (recordsOfApplication db u) reports) ↔
      ∀ r ∈ db.auditRecords, r.applicationId = u → Checkable D C env r := by
  have hmem : ∀ {r}, r ∈ recordsOfApplication db u ↔ r ∈ db.auditRecords ∧ r.applicationId = u := by
    intro r
    rw [recordsOfApplication, List.mem_insertionSort, List.mem_filter, decide_eq_true_eq]
  have hiff := forall₂_verifyAll_iff D C env hdb (recordsOfApplication db u)
    fun r hr => (hmem.mp hr).1
  rw [verifyByApplicationId, ha, ok_map]
  simp only [Except.ok.injEq, exists_eq_left', hiff]
  simp only [hmem, and_imp]

/-- The reports on an application with one intact record. -/
theorem oneReportEach_iff_record :
    (∃ reports, verifyByApplicationId WholeFloat Sample.crypto (Sample.verifyEnv []) (Sample.database Sample.record)
        (pyStr (Sample.uuid 2).str) = .ok reports ∧
        List.Forall₂ (ReportOn WholeFloat Sample.crypto (Sample.verifyEnv []))
          (recordsOfApplication (Sample.database Sample.record) (Sample.uuid 2)) reports) ↔
      ∀ r ∈ (Sample.database Sample.record).auditRecords, r.applicationId = Sample.uuid 2 →
        Checkable WholeFloat Sample.crypto (Sample.verifyEnv []) r :=
  oneReportEach_iff (Sample.keyed_database _) (uuidOf_str _)

/-- A record with a character outside ASCII in its HMAC has no report. -/
theorem nonAscii_record_dropped :
    ¬ ∀ (env : VerifyEnv) (db : Database) (a : PyStr) (u : Uuid), db.Keyed → uuidOf a = .ok u →
      ∃ reports, verifyByApplicationId WholeFloat Sample.crypto env db a = .ok reports ∧
        List.Forall₂ (ReportOn WholeFloat Sample.crypto env) (recordsOfApplication db u) reports := by
  intro h
  have hnil : verifyByApplicationId WholeFloat Sample.crypto (Sample.verifyEnv [])
      (Sample.database { Sample.record with recordHmac := ['\u00e9'] }) (pyStr (Sample.uuid 2).str) = .ok [] := by
    decide +kernel
  obtain ⟨reports, hr, hf⟩ := h (Sample.verifyEnv []) _ _ _ (Sample.keyed_database _) (uuidOf_str (Sample.uuid 2))
  cases hnil.symm.trans hr
  have hone : (recordsOfApplication (Sample.database { Sample.record with recordHmac := ['\u00e9'] })
      (Sample.uuid 2)).length = 1 := rfl
  rw [hf.length_eq] at hone
  cases hone

/-! ## The two modes -/

/-- **A record that the full check accepts is accepted by the HMAC-only check exactly when its hash is stored in lower
case.** -/
theorem hmacOnly_of_full_iff (hb : C.HmacBinding) {o : PyVal D} {reason : Text} {keys : Keys}
    (h : runFullVerification C keys r o = .ok (true, reason)) :
    runHmacOnlyVerification C keys r = .ok (true, [], false, true) ↔ lower r.agentOutputsHash = r.agentOutputsHash := by
  obtain ⟨-, b, -, hcases⟩ := runFull_eq_ok h
  rcases hcases with ⟨-, he⟩ | ⟨hs, ha, -⟩ | ⟨-, -, he⟩
  · cases he
  · rw [hs] at ha
    rw [runHmacOnly_valid_iff]
    exact ⟨fun ha' => ha.hash_unique hb ha', fun hl => hl ▸ ha⟩
  · cases he

namespace Sample

/-- A record that the full check accepts. -/
def FullyAccepted : Type := { r : AuditRecord // runFullVerification Sample.crypto keys r outputs = .ok (true, []) }

def accepted : FullyAccepted := ⟨record, by decide +kernel⟩

/-- The same with the hash stored in upper case. -/
def acceptedUpperCase : FullyAccepted := ⟨recordWith (hash.map Char.toUpper) hash, by decide +kernel⟩

end Sample

/-- Both modes accept the record whose hash is stored as it was computed. -/
theorem hmacOnly_of_full_iff_record :
    runHmacOnlyVerification Sample.crypto Sample.keys Sample.record = .ok (true, [], false, true) ↔
      lower Sample.hash = Sample.hash :=
  hmacOnly_of_full_iff Sample.crypto_hmacBinding Sample.accepted.property

/-- With its hash in upper case the record passes the full check and fails the other. -/
theorem upperCase_hash_modes_differ :
    ¬ ∀ (keys : Keys) (r : AuditRecord) (o : PyVal WholeFloat) (reason : Text),
      runFullVerification Sample.crypto keys r o = .ok (true, reason) →
      runHmacOnlyVerification Sample.crypto keys r = .ok (true, [], false, true) := by
  intro h
  exact absurd (h _ _ _ _ Sample.acceptedUpperCase.property) (by decide +kernel)

end ComplianceLoop
