import ComplianceLoop.Security.HmacUtils

/-!
# `security/encryption.py`

The wire format `[version:1][nonce:12][ciphertext+tag:N+16]` of encrypted payloads. What was encrypted under the key in
use is decrypted to the same plaintext (`decryptPayload_encryptPayload`). Both calls name their last argument `aad`, so
that anything is encrypted at all only when the cipher has this keyword (`returned_encryptPayload`).
-/

set_option autoImplicit false

namespace ComplianceLoop

open PyLib

/-- `_VERSION`. -/
def version : UInt8 := 0x01

/-- `_NONCE_SIZE`. -/
def nonceSize : Nat := 12

/-- `_TAG_SIZE`. -/
def tagSize : Nat := 16

/-- `_MIN_ENCRYPTED_LENGTH`. -/
def minEncryptedLength : Nat := 1 + nonceSize + tagSize + 1

/-- A nonce, as `secrets.token_bytes(_NONCE_SIZE)` returns it. -/
abbrev Nonce := {b : Bytes // b.length = nonceSize}

/-- `n` as a decimal in a message. -/
def decimal (n : Nat) : Text := Nat.toDigits 10 n

variable (C : Crypto) (keys : Keys)

/-- `encrypt_payload`, with the nonce it draws. -/
def encryptPayload (nonce : Nonce) (plaintext : Bytes) : Except PyExc Bytes :=
  if plaintext.isEmpty then raise .valueError "Cannot encrypt empty plaintext.".toList
  else keys.aes.bind fun key =>
    (C.gcmEncrypt key nonce.val plaintext).map fun ciphertextWithTag => version :: (nonce.val ++ ciphertextWithTag)

/-- `decrypt_payload`. -/
def decryptPayload (encrypted : Bytes) : Except PyExc Bytes :=
  match encrypted with
  | [] => raise .valueError "Cannot decrypt empty ciphertext.".toList
  | v :: rest =>
    if encrypted.length < minEncryptedLength then
      raise .valueError ("Encrypted payload too short: ".toList ++ decimal encrypted.length ++
        " bytes. Minimum is ".toList ++ decimal minEncryptedLength ++ " bytes.".toList)
    else if v ≠ version then
      raise .valueError ("Unsupported encryption version: 0x".toList ++ hexDigits 2 v.toNat ++
        ". Only version 0x".toList ++ hexDigits 2 version.toNat ++ " is supported.".toList)
    else keys.aes.bind fun key =>
      (C.gcmDecrypt key (rest.take nonceSize) (rest.drop nonceSize)).bind fun decrypted =>
        match decrypted with
        | some plaintext => .ok plaintext
        | none => raise .invalidTag ("AES-GCM authentication tag verification failed. ".toList ++
            "The payload may have been tampered with or the wrong key is being used.".toList)

/-- `is_encrypted`. -/
def isEncrypted (data : Bytes) : Bool :=
  match data with
  | [] => false
  | v :: _ => if data.length < minEncryptedLength then false else v == version

/-- The payload of a plaintext under a key. -/
def wire (key : Bytes) (nonce : Nonce) (plaintext : Bytes) : Bytes :=
  version :: (nonce.val ++ C.aesEncrypt key nonce.val plaintext)

theorem length_wire (key : Bytes) (nonce : Nonce) (p : Bytes) : (wire C key nonce p).length = p.length + 29 := by
  rw [wire, List.length_cons, List.length_append, nonce.property, C.length_aesEncrypt, nonceSize]
  omega

/-- Payloads can be encrypted: the cipher has the keyword, and there is a key. -/
def canEncrypt : Bool := C.takesAad && returned keys.aes

variable {C keys}

/-- The length of a nonce is one that the cipher takes. -/
theorem Nonce.length_taken (nonce : Nonce) : 8 ≤ nonce.val.length ∧ nonce.val.length ≤ 128 := by
  rw [nonce.property, nonceSize]
  decide

/-- What an encryption under a key returns, when the cipher has the keyword. -/
theorem gcmEncrypt_wire (haad : C.takesAad = true) (key : Bytes) (nonce : Nonce) (p : Bytes) :
    (C.gcmEncrypt key nonce.val p).map (fun c => version :: (nonce.val ++ c)) = .ok (wire C key nonce p) := by
  rw [Crypto.gcmEncrypt, Crypto.gcmCall_of_takesAad haad _ nonce.length_taken]
  rfl

theorem gcmDecrypt_nonce (haad : C.takesAad = true) (key : Bytes) (nonce : Nonce) (c : Bytes) :
    C.gcmDecrypt key nonce.val c = .ok (C.aesDecrypt key nonce.val c) :=
  Crypto.gcmCall_of_takesAad haad _ nonce.length_taken _

/-- The payload that an encryption returned. -/
theorem encryptPayload_eq_ok {nonce : Nonce} {p e : Bytes} :
    encryptPayload C keys nonce p = .ok e ↔
      p ≠ [] ∧ C.takesAad = true ∧ ∃ key, keys.aes = .ok key ∧ e = wire C key nonce p := by
  unfold encryptPayload
  cases p with
  | nil => simp
  | cons x p =>
    simp only [List.isEmpty_cons, Bool.false_eq_true, if_false, bind_eq_ok, map_eq_ok, ne_eq, reduceCtorEq,
      not_false_eq_true, true_and]
    constructor
    · rintro ⟨key, hkey, c, hc, rfl⟩
      obtain ⟨haad, rfl⟩ := C.takesAad_of_gcmCall hc
      exact ⟨haad, key, hkey, rfl⟩
    · rintro ⟨haad, key, hkey, rfl⟩
      exact ⟨key, hkey, map_eq_ok.mp (gcmEncrypt_wire haad key nonce _)⟩

theorem canEncrypt_iff : canEncrypt C keys = true ↔ C.takesAad = true ∧ ∃ key, keys.aes = .ok key := by
  rw [canEncrypt, Bool.and_eq_true, returned_iff]

/-- What is not empty is encrypted exactly when payloads can be encrypted. -/
theorem returned_encryptPayload {nonce : Nonce} {p : Bytes} (hp : p ≠ []) :
    returned (encryptPayload C keys nonce p) = true ↔ canEncrypt C keys = true := by
  simp only [returned_iff, encryptPayload_eq_ok, canEncrypt_iff]
  constructor
  · rintro ⟨_, -, haad, key, hkey, -⟩
    exact ⟨haad, key, hkey⟩
  · rintro ⟨haad, key, hkey⟩
    exact ⟨_, hp, haad, key, hkey, rfl⟩

/-- A payload that is long enough is decrypted, or refused by the cipher. -/
theorem decryptPayload_parts {key : Bytes} (hkey : keys.aes = .ok key) (nonce : Nonce) {c : Bytes}
    (hc : tagSize < c.length) : ∃ msg, decryptPayload C keys (version :: (nonce.val ++ c)) =
      (C.gcmDecrypt key nonce.val c).bind fun decrypted => decrypted.elim (raise .invalidTag msg) .ok := by
  have hlength : ¬ (version :: (nonce.val ++ c)).length < minEncryptedLength := by
    rw [List.length_cons, List.length_append, nonce.property, minEncryptedLength]
    omega
  rw [decryptPayload, if_neg hlength, if_neg (not_not_intro rfl), hkey, ok_bind, List.take_left' nonce.property,
    List.drop_left' nonce.property]
  cases C.gcmDecrypt key nonce.val c with
  | error e => exact ⟨[], rfl⟩
  | ok decrypted =>
    cases decrypted with
    | none => exact ⟨_, rfl⟩
    | some p => exact ⟨[], rfl⟩

/-- A payload under one key, read with another one. -/
theorem decryptPayload_wire {k key : Bytes} (hk : keys.aes = .ok k) (nonce : Nonce) {p : Bytes} (hp : p ≠ []) :
    decryptPayload C keys (wire C key nonce p) = .ok p ↔
      C.takesAad = true ∧ C.aesDecrypt k nonce.val (C.aesEncrypt key nonce.val p) = some p := by
  have hc : tagSize < (C.aesEncrypt key nonce.val p).length := by
    have hpos := List.length_pos_iff.mpr hp
    rw [C.length_aesEncrypt, tagSize]
    omega
  obtain ⟨msg, hparts⟩ := decryptPayload_parts (C := C) hk nonce hc
  rw [wire, hparts, bind_eq_ok]
  constructor
  · rintro ⟨decrypted, hcall, hresult⟩
    obtain ⟨haad, rfl⟩ := C.takesAad_of_gcmCall hcall
    cases hd : C.aesDecrypt k nonce.val (C.aesEncrypt key nonce.val p) with
    | none =>
      rw [hd] at hresult
      cases hresult
    | some q =>
      rw [hd] at hresult
      exact ⟨haad, congrArg some (Except.ok.inj hresult)⟩
  · rintro ⟨haad, hd⟩
    exact ⟨some p, by rw [gcmDecrypt_nonce haad, hd], rfl⟩

/-- **Decryption undoes encryption.** -/
theorem decryptPayload_encryptPayload {nonce : Nonce} {p e : Bytes} (h : encryptPayload C keys nonce p = .ok e) :
    decryptPayload C keys e = .ok p := by
  obtain ⟨hp, haad, key, hkey, rfl⟩ := encryptPayload_eq_ok.mp h
  exact (decryptPayload_wire hkey nonce hp).mpr ⟨haad, C.aesDecrypt_aesEncrypt _ _ _⟩

end ComplianceLoop
