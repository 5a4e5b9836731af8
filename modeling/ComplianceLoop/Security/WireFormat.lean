import ComplianceLoop.Security.AesRotation

/-!
# The wire format of encrypted payloads

What looks encrypted is the version, a nonce, and more than a tag (`isEncrypted_iff`); anything else is refused before
the key is asked for. With the keyword `aad` and an exact decryption, `decrypt_payload` returns what `encrypt_payload`
was given, and accepts nothing else (`decryptPayload_eq_ok`, `wireFormat`).
-/

set_option autoImplicit false

namespace ComplianceLoop

open PyLib

/-! ## What looks encrypted -/

/-- A payload that looks encrypted has the version, a nonce, and more than a tag. -/
theorem isEncrypted_iff {b : Bytes} :
    isEncrypted b = true ↔ ∃ (nonce : Nonce) (c : Bytes), b = version :: (nonce.val ++ c) ∧ tagSize < c.length := by
  constructor
  · intro h
    cases b with
    | nil => cases h
    | cons v rest =>
      unfold isEncrypted at h
      dsimp only at h
      split at h
      · cases h
      · rename_i hlength
        rw [List.length_cons, minEncryptedLength, tagSize] at hlength
        have htake : (rest.take nonceSize).length = nonceSize := by
          rw [List.length_take]
          omega
        refine ⟨⟨rest.take nonceSize, htake⟩, rest.drop nonceSize, ?_, ?_⟩
        · rw [eq_of_beq h, List.take_append_drop]
        · rw [List.length_drop, tagSize]
          omega
  · rintro ⟨nonce, c, rfl, hc⟩
    have hlength : ¬ (version :: (nonce.val ++ c)).length < minEncryptedLength := by
      rw [List.length_cons, List.length_append, nonce.property, minEncryptedLength]
      omega
    rw [isEncrypted, if_neg hlength, beq_self_eq_true]

/-- The encryption of a plaintext that is not empty looks encrypted. -/
theorem isEncrypted_wire (C : Crypto) (key : Bytes) (nonce : Nonce) {p : Bytes} (hp : p ≠ []) :
    isEncrypted (wire C key nonce p) = true := by
  refine isEncrypted_iff.mpr ⟨nonce, C.aesEncrypt key nonce.val p, rfl, ?_⟩
  have hpos := List.length_pos_iff.mpr hp
  rw [C.length_aesEncrypt, tagSize]
  omega

/-! ## What is decrypted -/

section

variable {C : Crypto} {keys : Keys} {key : Bytes}

/-- What does not look encrypted is refused. -/
theorem decryptPayload_malformed (C : Crypto) (keys : Keys) {b : Bytes} (h : isEncrypted b = false) :
    ∃ msg, decryptPayload C keys b = raise .valueError msg := by
  cases b with
  | nil => exact ⟨_, rfl⟩
  | cons v rest =>
    unfold isEncrypted at h
    unfold decryptPayload
    dsimp only at h ⊢
    split at h
    · rename_i hlength
      rw [if_pos hlength]
      exact ⟨_, rfl⟩
    · rename_i hlength
      rw [if_neg hlength, if_pos (ne_of_beq_false h)]
      exact ⟨_, rfl⟩

/-- A payload is refused, because it is malformed or has a wrong tag, or its ciphertext is decrypted. -/
theorem decryptPayload_cases (haad : C.takesAad = true) (hkey : keys.aes = .ok key) (b : Bytes) :
    (∃ e, decryptPayload C keys b = .error e ∧ (e.type = .valueError ∨ e.type = .invalidTag)) ∨
      ∃ (nonce : Nonce) (c p : Bytes), b = version :: (nonce.val ++ c) ∧ tagSize < c.length ∧
        C.aesDecrypt key nonce.val c = some p ∧ decryptPayload C keys b = .ok p := by
  cases hform : isEncrypted b with
  | false =>
    obtain ⟨msg, hraise⟩ := decryptPayload_malformed C keys hform
    exact .inl ⟨_, hraise, .inl rfl⟩
  | true =>
    obtain ⟨nonce, c, rfl, hc⟩ := isEncrypted_iff.mp hform
    obtain ⟨msg, hparts⟩ := decryptPayload_parts (C := C) hkey nonce hc
    rw [gcmDecrypt_nonce haad, ok_bind] at hparts
    cases hdecrypt : C.aesDecrypt key nonce.val c with
    | none =>
      rw [hdecrypt] at hparts
      exact .inl ⟨_, hparts, .inr rfl⟩
    | some p =>
      rw [hdecrypt] at hparts
      exact .inr ⟨nonce, c, p, rfl, hc, hdecrypt, hparts⟩

/-- **What is decrypted is an encryption under the key in use.** -/
theorem decryptPayload_eq_ok (haad : C.takesAad = true) (hexact : C.Exact) (hkey : keys.aes = .ok key) {b p : Bytes} :
    decryptPayload C keys b = .ok p ↔ p ≠ [] ∧ ∃ nonce, b = wire C key nonce p := by
  constructor
  · intro h
    rcases decryptPayload_cases haad hkey b with ⟨e, he, -⟩ | ⟨nonce, c, q, rfl, hc, hdecrypt, hq⟩
    · rw [he] at h
      cases h
    · obtain rfl : q = p := Except.ok.inj (hq.symm.trans h)
      have hlength := hexact.length hdecrypt
      refine ⟨?_, nonce, by rw [wire, ← hexact hdecrypt]⟩
      rintro rfl
      rw [hlength, tagSize] at hc
      exact absurd hc (by decide)
  · rintro ⟨hp, nonce, rfl⟩
    exact (decryptPayload_wire hkey nonce hp).mpr ⟨haad, C.aesDecrypt_aesEncrypt _ _ _⟩

/-- A refused payload is malformed or has a wrong tag. -/
theorem type_of_decryptPayload (haad : C.takesAad = true) (hkey : keys.aes = .ok key) {b : Bytes} {e : PyExc}
    (h : decryptPayload C keys b = .error e) : e.type = .valueError ∨ e.type = .invalidTag := by
  rcases decryptPayload_cases haad hkey b with ⟨e', he, htype⟩ | ⟨nonce, c, p, -, -, -, hp⟩
  · obtain rfl := Except.error.inj (he.symm.trans h)
    exact htype
  · rw [hp] at h
    cases h

variable (C keys key) in
/-- What is encrypted is decrypted to the same plaintext, and nothing else is decrypted. -/
structure WireFormat : Prop where
  decrypts : ∀ (nonce : Nonce) (p : Bytes), p ≠ [] → ∃ e, encryptPayload C keys nonce p = .ok e ∧
    decryptPayload C keys e = .ok p ∧ e.length = p.length + 29 ∧ isEncrypted e = true
  encrypted : ∀ b p, decryptPayload C keys b = .ok p →
    ∃ nonce : Nonce, b = 0x01 :: (nonce.val ++ C.aesEncrypt key nonce.val p)
  rejects : ∀ b, (∀ (nonce : Nonce) (p : Bytes), p ≠ [] → b ≠ 0x01 :: (nonce.val ++ C.aesEncrypt key nonce.val p)) →
    ∃ e, decryptPayload C keys b = .error e ∧ (e.type = .valueError ∨ e.type = .invalidTag)

/-- **Payloads have the wire format.** -/
theorem wireFormat (haad : C.takesAad = true) (hexact : C.Exact) (hkey : keys.aes = .ok key) :
    WireFormat C keys key := by
  constructor
  · intro nonce p hp
    refine ⟨wire C key nonce p, ?_, ?_, length_wire C key nonce p, isEncrypted_wire C key nonce hp⟩
    · exact encryptPayload_eq_ok.mpr ⟨hp, haad, key, hkey, rfl⟩
    · exact (decryptPayload_eq_ok haad hexact hkey).mpr ⟨hp, nonce, rfl⟩
  · intro b p h
    exact ((decryptPayload_eq_ok haad hexact hkey).mp h).2
  · intro b hb
    cases hdecrypt : decryptPayload C keys b with
    | ok p =>
      obtain ⟨hp, nonce, rfl⟩ := (decryptPayload_eq_ok haad hexact hkey).mp hdecrypt
      exact absurd rfl (hb nonce p hp)
    | error e => exact ⟨e, rfl, type_of_decryptPayload haad hkey hdecrypt⟩

end

namespace KeySample

theorem aes_start : (Process.start environ).keys.aes = .ok (key 2) := by decide

end KeySample

/-- The wire format under one key. -/
theorem wireFormat_key :
    WireFormat KeySample.crypto.exact (Process.start KeySample.environ).keys (KeySample.key 2) :=
  wireFormat rfl (Crypto.exact_exact _) KeySample.aes_start

end ComplianceLoop
