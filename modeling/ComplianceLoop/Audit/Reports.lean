import Mathlib.Data.List.Chain
import ComplianceLoop.Audit.Verifier

/-!
# What a report says

A report exists exactly for a record that is `Checkable` (`returned_checkRecord_iff`), and it says that the record is
valid exactly when it is `Intact` (`isValid_iff`, `exists_validReport_iff`). The texts of the two reasons decide the
flags of a full verification: the reason of a hash mismatch names the hash only, that of an HMAC mismatch the HMAC only.
-/

set_option autoImplicit false

namespace ComplianceLoop

open PyLib

variable {D : Type} [FloatOps D] {C : Crypto} {env : VerifyEnv} {db : Database} {r : AuditRecord}

/-! ## The texts of the reasons -/

theorem containsText_iff {p t : Text} : containsText p t = true ↔ p <:+: t := decide_eq_true_iff

theorem lower_hashMismatch (s t : Text) : lower (hashMismatch s t) =
    "agent_outputs_".toList ++ ("hash".toList ++ (" mismatch. stored: ".toList ++ (lower (s.take 16) ++
      ("... recomputed: ".toList ++ (lower (t.take 16) ++
        "... the agent outputs have been tampered with.".toList))))) := by
  have h1 : lower "agent_outputs_hash mismatch. Stored: ".toList =
      "agent_outputs_".toList ++ ("hash".toList ++ " mismatch. stored: ".toList) := by decide +kernel
  have h2 : lower "... Recomputed: ".toList = "... recomputed: ".toList := by decide +kernel
  have h3 : lower "... The agent outputs have been tampered with.".toList =
      "... the agent outputs have been tampered with.".toList := by decide +kernel
  -- the equation lemma of `hashMismatch` would evaluate its literals
  delta hashMismatch
  rw [lower_append, lower_append, lower_append, lower_append, h1, h2, h3]
  repeat rw [List.append_assoc]

/-- The reason of a hash mismatch names the hash, whatever was stored. -/
theorem hash_in_hashMismatch (s t : Text) : containsText "hash".toList (lower (hashMismatch s t)) = true := by
  rw [containsText_iff, lower_hashMismatch]
  exact ⟨_, _, List.append_assoc _ _ _⟩

/-- No `m` directly follows an `h` or starts the text. -/
abbrev NoHm (t : Text) : Prop := (t.IsChain fun a b => ¬ (a = 'h' ∧ b = 'm')) ∧ t.head? ≠ some 'm'

theorem noHm_append {s t : Text} (hs : NoHm s) (ht : NoHm t) : NoHm (s ++ t) := by
  refine ⟨List.isChain_append.mpr ⟨hs.1, ht.1, fun a _ b hb hab => ht.2 (hab.2 ▸ hb)⟩, ?_⟩
  cases s with
  | nil => exact ht.2
  | cons c s => exact hs.2

theorem noHm_of_lowerHex {t : Text} (ht : LowerHex t) : NoHm t := by
  induction t with
  | nil => exact ⟨List.isChain_nil, by simp⟩
  | cons c t ih =>
    have hc := isLowerHex_range (ht c List.mem_cons_self)
    refine ⟨List.isChain_cons.mpr ⟨?_, (ih fun d hd => ht d (List.mem_cons_of_mem _ hd)).1⟩, ?_⟩
    · rintro d - ⟨rfl, -⟩
      simp at hc
    · rintro h
      obtain rfl : c = 'm' := by simpa using h
      simp at hc

/-- The reason of a hash mismatch does not name the HMAC. -/
theorem hmac_notIn_hashMismatch {s t : Text} (hs : LowerHex s) (ht : LowerHex t) :
    containsText "hmac".toList (lower (hashMismatch s t)) = false := by
  have hex : ∀ {u : Text}, LowerHex u → LowerHex (u.take 16) := fun hu c hc => hu c (List.mem_of_mem_take hc)
  have hchain : NoHm (lower (hashMismatch s t)) := by
    rw [lower_hashMismatch, lower_of_lowerHex (hex hs), lower_of_lowerHex (hex ht)]
    have h1 := noHm_append (noHm_of_lowerHex (hex ht))
      (by decide +kernel : NoHm "... the agent outputs have been tampered with.".toList)
    have h2 := noHm_append (by decide +kernel : NoHm "... recomputed: ".toList) h1
    have h3 := noHm_append (by decide +kernel : NoHm " mismatch. stored: ".toList)
      (noHm_append (noHm_of_lowerHex (hex hs)) h2)
    exact noHm_append (by decide +kernel) (noHm_append (by decide +kernel) h3)
  rw [Bool.eq_false_iff, ne_eq, containsText_iff]
  rintro ⟨s', t', he⟩
  -- the letters of "hmac" would be neighbours in the text
  rw [← he] at hchain
  have hm := (List.isChain_append.mp (List.isChain_append.mp hchain.1).1).2.1
  exact absurd hm (by decide)

/-- The reason of an HMAC mismatch names the HMAC. -/
theorem hmac_in_hmacMismatch : containsText "hmac".toList (lower hmacMismatch) = true := by decide +kernel

/-- What a hash mismatch is reported as. -/
theorem hashPassed_ofFull_hashMismatch (s t : Text) :
    (CheckResult.ofFull (false, hashMismatch s t)).hashPassed = false :=
  (hashPassed_ofFull _).trans (congrArg not (hash_in_hashMismatch s t))

theorem hmacPassed_ofFull_hashMismatch {s t : Text} (hs : LowerHex s) (ht : LowerHex t) :
    (CheckResult.ofFull (false, hashMismatch s t)).hmacPassed = true :=
  (hmacPassed_ofFull _).trans (congrArg not (hmac_notIn_hashMismatch hs ht))

/-- What an HMAC mismatch is reported as. -/
theorem hmacPassed_ofFull_hmacMismatch : (CheckResult.ofFull (false, hmacMismatch)).hmacPassed = false :=
  (hmacPassed_ofFull _).trans (congrArg not hmac_in_hmacMismatch)

/-! ## What one check finds -/

section

variable (D : Type) [FloatOps D] (C : Crypto) (env : VerifyEnv)

/-- The agent outputs of the payload, where it can be read. -/
def OutputsOf (r : AuditRecord) (o : PyVal D) : Prop :=
  ∃ payload, payloadOf D C env r = some payload ∧ payload.get (pyStr agentOutputsKey) (.dict []) = .ok o

/-- The checks that the record is due can be made: those of the payload, where it can be read, and of the HMAC. -/
def Checkable (r : AuditRecord) : Prop :=
  if (payloadOf D C env r).isSome then
    ∃ o b, OutputsOf D C env r o ∧ canonicalJson o = .ok b ∧ o.truthy = true ∧
      isAscii (lower r.agentOutputsHash) = true ∧ (C.sha256 b = lower r.agentOutputsHash → HmacCheckable env.keys r)
  else HmacCheckable env.keys r

/-- The HMAC is that of the stored hash, and the payload, where it can be read, has this hash. -/
def Intact (r : AuditRecord) : Prop :=
  if (payloadOf D C env r).isSome then
    ∃ o b, OutputsOf D C env r o ∧ canonicalJson o = .ok b ∧ o.truthy = true ∧ C.sha256 b = lower r.agentOutputsHash ∧
      HmacAccepts C env.keys r (lower r.agentOutputsHash)
  else HmacAccepts C env.keys r r.agentOutputsHash

end

/-- The check of a record with a payload. -/
theorem checkRecord_of_outputs {o : PyVal D} (ho : OutputsOf D C env r o) :
    checkRecord D C env r = (runFullVerification C env.keys r o).map .ofFull := by
  obtain ⟨payload, hp, hg⟩ := ho
  rw [checkRecord, hp]
  simp only [hg, ok_bind]

/-- The check of a record without one. -/
theorem checkRecord_of_none (hp : payloadOf D C env r = none) :
    checkRecord D C env r = (runHmacOnlyVerification C env.keys r).map .ofHmacOnly := by
  rw [checkRecord, hp]

/-- A check that returned for a record with a payload found its agent outputs. -/
theorem outputsOf_of_checkRecord {c : CheckResult} (hp : (payloadOf D C env r).isSome = true)
    (hc : checkRecord D C env r = .ok c) : ∃ o, OutputsOf D C env r o := by
  obtain ⟨payload, hp⟩ := Option.isSome_iff_exists.mp hp
  rw [checkRecord, hp] at hc
  obtain ⟨o, ho, -⟩ := bind_eq_ok.mp hc
  exact ⟨o, payload, hp, ho⟩

theorem OutputsOf.canonicalJson {o : PyVal D} (ho : OutputsOf D C env r o) : ∃ b, canonicalJson o = .ok b := by
  obtain ⟨payload, hp, hg⟩ := ho
  exact canonicalJson_of_payload hp hg

theorem OutputsOf.unique {o o' : PyVal D} (ho : OutputsOf D C env r o) (ho' : OutputsOf D C env r o') : o = o' := by
  obtain ⟨payload, hp, hg⟩ := ho
  obtain ⟨payload', hp', hg'⟩ := ho'
  cases hp.symm.trans hp'
  exact Except.ok.inj (hg.symm.trans hg')

/-- **The check of a record returns exactly when it is checkable.** -/
theorem returned_checkRecord_iff : returned (checkRecord D C env r) = true ↔ Checkable D C env r := by
  unfold Checkable
  split
  · rename_i hp
    constructor
    · intro h
      obtain ⟨c, hc⟩ := returned_iff.mp h
      obtain ⟨o, ho⟩ := outputsOf_of_checkRecord hp hc
      obtain ⟨b, hb⟩ := ho.canonicalJson
      rw [checkRecord_of_outputs ho, returned_map, returned_runFull_iff hb] at h
      exact ⟨o, b, ho, hb, h⟩
    · rintro ⟨o, b, ho, hb, h⟩
      rw [checkRecord_of_outputs ho, returned_map, returned_runFull_iff hb]
      exact h
  · rename_i hp
    rw [checkRecord_of_none (by simpa using hp), returned_map, returned_runHmacOnly_iff]

/-- **A check that returned finds a record valid exactly when it is intact.** -/
theorem isValid_iff {c : CheckResult} (hc : checkRecord D C env r = .ok c) : c.isValid = true ↔ Intact D C env r := by
  unfold Intact
  split
  · rename_i hp
    obtain ⟨o, ho⟩ := outputsOf_of_checkRecord hp hc
    rw [checkRecord_of_outputs ho] at hc
    obtain ⟨res, hr, rfl⟩ := map_eq_ok.mp hc
    obtain ⟨ht, b, hb, hres⟩ := runFull_eq_ok hr
    constructor
    · intro hv
      rcases hres with ⟨-, rfl⟩ | ⟨hs, ha, -⟩ | ⟨-, -, rfl⟩
      · cases hv
      · exact ⟨o, b, ho, hb, ht, hs, hs ▸ ha⟩
      · cases hv
    · rintro ⟨o', b', ho', hb', -, hs, ha⟩
      cases ho.unique ho'
      cases hb.symm.trans hb'
      rcases hres with ⟨hn, -⟩ | ⟨-, -, rfl⟩ | ⟨-, hn, -⟩
      · exact absurd hs hn
      · rfl
      · exact absurd (hs ▸ ha) hn
  · rename_i hp
    rw [checkRecord_of_none (by simpa using hp)] at hc
    obtain ⟨res, hr, rfl⟩ := map_eq_ok.mp hc
    rcases runHmacOnly_eq_ok hr with ⟨ha, rfl⟩ | ⟨hn, rfl⟩
    · exact iff_of_true rfl ha
    · exact iff_of_false (by simp) hn

theorem Intact.checkable (h : Intact D C env r) : Checkable D C env r := by
  unfold Intact at h
  unfold Checkable
  split
  · rename_i hp
    rw [if_pos hp] at h
    obtain ⟨o, b, ho, hb, ht, hs, ha⟩ := h
    exact ⟨o, b, ho, hb, ht, hs ▸ Crypto.isAscii_sha256 b, fun _ => hmacCheckable_of_accepts ha⟩
  · rename_i hp
    rw [if_neg hp] at h
    exact hmacCheckable_of_accepts h

variable (D C env) in
/-- The report on a record of a table with unique decisions. -/
theorem verifyByDecisionId_of_mem (hk : db.Keyed) (hr : r ∈ db.auditRecords) {d : PyStr}
    (hd : uuidOf d = .ok r.decisionId) : ∃ decision,
      verifyByDecisionId D C env db d = (checkRecord D C env r).map (reportOf env.now d r decision) := by
  obtain ⟨decision, hq⟩ := hk.decision_query r.decisionId
  exact ⟨decision, verifyByDecisionId_of_record hd (hk.auditRecordsOf_eq hr) hq⟩

/-- **Some report says that the record is valid exactly when it is intact.** -/
theorem exists_validReport_iff (hk : db.Keyed) (hr : r ∈ db.auditRecords) :
    (∃ d v, uuidOf d = .ok r.decisionId ∧ verifyByDecisionId D C env db d = .ok v ∧ v.isValid = true) ↔
      Intact D C env r := by
  constructor
  · rintro ⟨d, v, hd, hv, hvalid⟩
    obtain ⟨decision, he⟩ := verifyByDecisionId_of_mem D C env hk hr hd
    rw [he] at hv
    obtain ⟨c, hc, rfl⟩ := map_eq_ok.mp hv
    exact (isValid_iff hc).mp hvalid
  · intro h
    have hret : returned (checkRecord D C env r) = true := returned_checkRecord_iff.mpr h.checkable
    obtain ⟨c, hc⟩ := returned_iff.mp hret
    obtain ⟨decision, he⟩ := verifyByDecisionId_of_mem D C env hk hr (uuidOf_str r.decisionId)
    exact ⟨_, _, uuidOf_str _, by rw [he, hc]; rfl, (isValid_iff hc).mpr h⟩

end ComplianceLoop
