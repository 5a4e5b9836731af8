import ComplianceLoop.PyLib.Builtins
import ComplianceLoop.PyLib.Crypto

/-!
# `security/hmac_utils.py`

The hash of the agent outputs and the HMAC of an audit record. A `Keys` is what the three key getters return or raise;
how they get there (environment, caches, Vault) is not visible to the functions here.

`verifyRecordHmac_eq_true_iff` says what an accepted HMAC is, `verifyRecordHmac_isOk_iff` when the check returns at
all: `hmac.compare_digest` raises on a string with a non-ASCII character. The signed message can be taken apart from
the right, whatever its first field is (`hmacText_inj`).
-/

set_option autoImplicit false

namespace ComplianceLoop

open PyLib

/-- What `_get_server_hmac_key`, `_get_previous_hmac_key` and `_get_aes_key` give. -/
structure Keys where
  server : Except PyExc Bytes
  previous : Option Bytes
  aes : Except PyExc Bytes

section

variable {D : Type} [FloatOps D] (C : Crypto)

/-! ## SHA-256 -/

/-- `compute_sha256`. -/
def computeSha256 (data : Bytes) : Except PyExc Text :=
  if data.isEmpty then raise .valueError "Cannot hash empty data.".toList else .ok (C.sha256 data)

/-- `canonical_json`. -/
def canonicalJson (obj : PyVal D) : Except PyExc Bytes := obj.dumps.map utf8

/-- `hash_agent_outputs`. -/
def hashAgentOutputs (agentOutputs : PyVal D) : Except PyExc Text :=
  if agentOutputs.truthy then (canonicalJson agentOutputs).bind (computeSha256 C)
  else raise .valueError "agent_outputs must not be empty.".toList

/-- `verify_sha256`. -/
def verifySha256 (data : Bytes) (expectedHash : Text) : Except PyExc Bool :=
  (computeSha256 C data).bind fun actual => compareDigest (lower actual) (lower expectedHash)

/-! ## HMAC-SHA256 -/

/-- `_build_hmac_message`. -/
def buildHmacMessage (agentOutputsHash : Text) (decisionId guidelineVersionId : PyStr) (writtenAt : Text) :
    Except PyExc Bytes :=
  let pipe := codePoint '|'
  encodeUtf8 (pyStr agentOutputsHash ++ pipe :: (decisionId ++ pipe :: (guidelineVersionId ++ pipe :: pyStr writtenAt)))

/-- `compute_record_hmac`. -/
def computeRecordHmac (keys : Keys) (agentOutputsHash : Text) (decisionId guidelineVersionId : PyStr)
    (writtenAt : Text) : Except PyExc Text :=
  keys.server.bind fun key =>
    (buildHmacMessage agentOutputsHash decisionId guidelineVersionId writtenAt).map (C.hmac key)

/-- `verify_record_hmac`. -/
def verifyRecordHmac (keys : Keys) (storedHmac agentOutputsHash : Text) (decisionId guidelineVersionId : PyStr)
    (writtenAt : Text) : Except PyExc Bool :=
  (buildHmacMessage agentOutputsHash decisionId guidelineVersionId writtenAt).bind fun message =>
    keys.server.bind fun currentKey =>
      (compareDigest (lower storedHmac) (lower (C.hmac currentKey message))).bind fun current =>
        if current then .ok true
        else match keys.previous with
          | some previousKey => compareDigest (lower storedHmac) (lower (C.hmac previousKey message))
          | none => .ok false

end

/-! ## The canonical text -/

section

variable {D : Type} [FloatOps D] {C : Crypto}

theorem canonicalJson_ne_nil {v : PyVal D} {b : Bytes} (h : canonicalJson v = .ok b) : b ≠ [] := by
  obtain ⟨t, ht, rfl⟩ := map_eq_ok.mp h
  obtain ⟨d, -, rfl⟩ := map_eq_ok.mp ht
  obtain ⟨c, r, hr, -⟩ := Json.opens_print d []
  rw [List.append_nil] at hr
  rw [ne_eq, utf8_eq_nil, hr]
  exact List.cons_ne_nil c r

theorem computeSha256_of_ne {b : Bytes} (h : b ≠ []) : computeSha256 C b = .ok (C.sha256 b) := by
  cases b with
  | nil => exact absurd rfl h
  | cons x b => rfl

theorem computeSha256_canonicalJson {v : PyVal D} {b : Bytes} (h : canonicalJson v = .ok b) :
    computeSha256 C b = .ok (C.sha256 b) := computeSha256_of_ne (canonicalJson_ne_nil h)

theorem hashAgentOutputs_eq_ok {v : PyVal D} {t : Text} :
    hashAgentOutputs C v = .ok t ↔ v.truthy = true ∧ ∃ b, canonicalJson v = .ok b ∧ t = C.sha256 b := by
  unfold hashAgentOutputs
  split
  · rename_i ht
    rw [bind_eq_ok]
    constructor
    · rintro ⟨b, hb, h⟩
      rw [computeSha256_canonicalJson hb] at h
      exact ⟨ht, b, hb, (Except.ok.inj h).symm⟩
    · rintro ⟨-, b, hb, rfl⟩
      exact ⟨b, hb, computeSha256_canonicalJson hb⟩
  · rename_i ht
    exact ⟨fun h => absurd h (raise_ne_ok _ _ _), fun h => absurd h.1 ht⟩

/-- A digest of canonical text compares with a stored string unless that has a non-ASCII character. -/
theorem verifySha256_canonicalJson {v : PyVal D} {b : Bytes} (h : canonicalJson v = .ok b) {expected : Text}
    (ha : isAscii (lower expected) = true) : verifySha256 C b expected = .ok (C.sha256 b == lower expected) := by
  rw [verifySha256, computeSha256_canonicalJson h]
  simp [compareDigest_of_ascii, ha]

theorem verifySha256_nonAscii {v : PyVal D} {b : Bytes} (h : canonicalJson v = .ok b) {expected : Text}
    (ha : isAscii (lower expected) = false) : returned (verifySha256 C b expected) = false := by
  rw [verifySha256, computeSha256_canonicalJson h]
  simp [compareDigest, ha]

/-! ## The signed message -/

/-- The text of the signed message. -/
def hmacText (agentOutputsHash decisionId guidelineVersionId writtenAt : Text) : Text :=
  agentOutputsHash ++ '|' :: (decisionId ++ '|' :: (guidelineVersionId ++ '|' :: writtenAt))

theorem hmacText_eq (h d g w : Text) : hmacText h d g w = ((h ++ '|' :: d) ++ '|' :: g) ++ '|' :: w := by
  simp [hmacText]

/-- **The last three fields, which contain no pipe, separate the first from themselves.** -/
theorem hmacText_inj {h h' d d' g g' w w' : Text} (hd : '|' ∉ d) (hd' : '|' ∉ d') (hg : '|' ∉ g) (hg' : '|' ∉ g')
    (hw : '|' ∉ w) (hw' : '|' ∉ w') (he : hmacText h d g w = hmacText h' d' g' w') :
    h = h' ∧ d = d' ∧ g = g' ∧ w = w' := by
  rw [hmacText_eq, hmacText_eq] at he
  obtain ⟨he, h4⟩ := append_sep_inj_right hw hw' he
  obtain ⟨he, h3⟩ := append_sep_inj_right hg hg' he
  obtain ⟨h1, h2⟩ := append_sep_inj_right hd hd' he
  exact ⟨h1, h2, h3, h4⟩

@[simp] theorem buildHmacMessage_pyStr (h d g w : Text) :
    buildHmacMessage h (pyStr d) (pyStr g) w = .ok (utf8 (hmacText h d g w)) := by
  have : pyStr h ++ codePoint '|' :: (pyStr d ++ codePoint '|' :: (pyStr g ++ codePoint '|' :: pyStr w)) =
      pyStr (hmacText h d g w) := by simp [pyStr, hmacText]
  rw [buildHmacMessage, this, encodeUtf8_pyStr]

/-! ## Accepted HMACs -/

/-- The stored HMAC is, up to letter case, the HMAC of the message under the current or the previous key. -/
def HmacMatches (C : Crypto) (keys : Keys) (storedHmac : Text) (message : Bytes) : Prop :=
  ∃ key, keys.server = .ok key ∧
    (lower storedHmac = C.hmac key message ∨ ∃ previous, keys.previous = some previous ∧
      lower storedHmac = C.hmac previous message)

theorem isAscii_of_hmacMatches {keys : Keys} {stored : Text} {m : Bytes} (h : HmacMatches C keys stored m) :
    isAscii (lower stored) = true := by
  obtain ⟨k, -, h | ⟨p, -, h⟩⟩ := h <;> rw [h] <;> exact Crypto.isAscii_hmac _ _

/-- A stored HMAC belongs to one message. -/
theorem HmacMatches.unique (hb : C.HmacBinding) {keys : Keys} {stored : Text} {m m' : Bytes}
    (h : HmacMatches C keys stored m) (h' : HmacMatches C keys stored m') : m = m' := by
  obtain ⟨key, -, h | ⟨p, -, h⟩⟩ := h <;> obtain ⟨key', -, h' | ⟨p', -, h'⟩⟩ := h' <;> exact hb (h.symm.trans h')

/-- A stored HMAC belongs to one message, so to one text of each of its fields. -/
theorem HmacMatches.fields_unique (hb : C.HmacBinding) {keys : Keys} {stored h h' d d' g g' w w' : Text} (hd : '|' ∉ d)
    (hd' : '|' ∉ d') (hg : '|' ∉ g) (hg' : '|' ∉ g') (hw : '|' ∉ w) (hw' : '|' ∉ w')
    (hm : HmacMatches C keys stored (utf8 (hmacText h d g w)))
    (hm' : HmacMatches C keys stored (utf8 (hmacText h' d' g' w'))) : h = h' ∧ d = d' ∧ g = g' ∧ w = w' :=
  hmacText_inj hd hd' hg hg' hw hw' (utf8_injective (hm.unique hb hm'))

variable {keys : Keys} {stored h : Text} {d g : PyStr} {w : Text} {m : Bytes}

/-- **What an accepted HMAC is.** -/
theorem verifyRecordHmac_eq_true_iff (hm : buildHmacMessage h d g w = .ok m) :
    verifyRecordHmac C keys stored h d g w = .ok true ↔ HmacMatches C keys stored m := by
  rw [verifyRecordHmac, hm, ok_bind]
  constructor
  · intro hv
    obtain ⟨key, hk, hv⟩ := bind_eq_ok.mp hv
    obtain ⟨current, hc, hv⟩ := bind_eq_ok.mp hv
    refine ⟨key, hk, ?_⟩
    cases current with
    | true => exact .inl (by simpa using compareDigest_eq_true hc)
    | false =>
      rw [if_neg (by simp)] at hv
      split at hv
      · rename_i p hp
        exact .inr ⟨p, hp, by simpa using compareDigest_eq_true hv⟩
      · cases hv
  · intro hmatch
    have ha := isAscii_of_hmacMatches hmatch
    obtain ⟨key, hk, hc⟩ := hmatch
    simp only [hk, ok_bind, Crypto.lower_hmac, compareDigest_of_ascii ha (Crypto.isAscii_hmac _ _)]
    rcases hc with hc | ⟨p, hp, hc⟩
    · simp [hc]
    · split
      · rfl
      · simp [hp, hc]

/-- The check returns exactly when there is a key and the stored HMAC has an ASCII lower case. -/
theorem verifyRecordHmac_isOk_iff (hm : buildHmacMessage h d g w = .ok m) :
    returned (verifyRecordHmac C keys stored h d g w) = true ↔
      returned keys.server = true ∧ isAscii (lower stored) = true := by
  rw [verifyRecordHmac, hm, ok_bind]
  cases hk : keys.server with
  | error e => simp
  | ok key =>
    cases ha : isAscii (lower stored) with
    | false => simp [compareDigest, ha]
    | true =>
      simp only [ok_bind, compareDigest_of_ascii ha (by simp : isAscii (lower (C.hmac key m)) = true), returned_ok,
        and_self, iff_true]
      split
      · rfl
      · split
        · rw [compareDigest_of_ascii ha (by simp)]
          rfl
        · rfl

end

end ComplianceLoop
