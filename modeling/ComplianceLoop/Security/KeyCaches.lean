import ComplianceLoop.PyLib.Strings
import ComplianceLoop.Security.Encryption

/-!
# The keys of a process

The environment of a process and its module globals: the four cached keys and the two globals of the secrets loader. A
key is read from the environment at its first use and then kept. `Process.keys` is what the three getters of
`hmac_utils.py` and `encryption.py` give, which is all that signing, verification and encryption see of the process; the
calls keep it (`View`).
-/

set_option autoImplicit false

namespace ComplianceLoop

open PyLib

/-- The environment and the module globals. -/
structure Process where
  /-- `os.environ` -/
  environ : TextDict
  /-- `secrets_loader._secret_cache` -/
  secretCache : TextDict
  /-- `secrets_loader._loaded` -/
  loaded : Bool
  /-- `hmac_utils._server_hmac_key` -/
  serverHmacKey : Option Bytes
  /-- `hmac_utils._server_hmac_key_previous` -/
  serverHmacKeyPrevious : Option Bytes
  /-- `pan_handler._pan_hmac_key` -/
  panHmacKey : Option Bytes
  /-- `encryption._aes_key` -/
  aesKey : Option Bytes
  deriving DecidableEq

/-- A process that has imported the modules and called nothing. -/
def Process.start (environ : TextDict) : Process := ⟨environ, .empty, false, none, none, none, none⟩

/-! ## Loading a key -/

def serverHmacKeyVar : Text := "SERVER_HMAC_KEY".toList

def serverHmacKeyPreviousVar : Text := "SERVER_HMAC_KEY_PREVIOUS".toList

def panHmacKeyVar : Text := "PAN_HMAC_KEY".toList

def aesKeyVar : Text := "AES_KEY".toList

/-- The command that the messages about keys recommend. -/
def tokenHexCommand : Text := "python -c \"import secrets; print(secrets.token_hex(32))\"".toList

/-- Read a key of 32 bytes from the environment. The two last arguments make the messages for a value that is no
hexadecimal text and for one of another length. -/
def loadKey (environ : TextDict) (envVar : Text) (notHex : Text → Text) (wrongLength : Nat → Nat → Text) :
    Except PyExc Bytes :=
  let raw := environ.get envVar []
  if raw.isEmpty then
    raise .runtimeError (envVar ++ " environment variable is not set. Generate with: ".toList ++ tokenHexCommand)
  else match bytesFromHex raw with
    | .error exc => raise .runtimeError (notHex exc.msg)
    | .ok keyBytes =>
      if keyBytes.length ≠ 32 then raise .runtimeError (wrongLength keyBytes.length raw.length) else .ok keyBytes

/-- `_load_hmac_key`. -/
def loadHmacKey (environ : TextDict) (envVar : Text) : Except PyExc Bytes :=
  loadKey environ envVar (fun exc => envVar ++ " is not valid hex: ".toList ++ exc) fun bytes _ =>
    envVar ++ " must be exactly 32 bytes (64 hex chars). Got ".toList ++ decimal bytes ++ " bytes.".toList

/-- `_load_aes_key`. -/
def loadAesKey (environ : TextDict) : Except PyExc Bytes :=
  loadKey environ aesKeyVar
    (fun exc => "AES_KEY is not valid hex: ".toList ++ exc ++ ". Must be a 64-character hex string (32 bytes).".toList)
    fun bytes chars =>
      "AES_KEY must be exactly 32 bytes (256 bits). Got ".toList ++ decimal bytes ++ " bytes (".toList ++
        decimal chars ++ " hex chars).".toList

/-- What `_get_previous_hmac_key` reads from the environment. -/
def loadPreviousHmacKey (environ : TextDict) : Option Bytes :=
  let prev := environ.get serverHmacKeyPreviousVar []
  if prev.isEmpty then none else (bytesFromHex prev).toOption

/-- `_load_pan_hmac_key`. -/
def loadPanHmacKey (environ : TextDict) : Except PyExc Bytes :=
  (loadHmacKey environ panHmacKeyVar).bind fun keyBytes =>
    let serverKeyRaw := environ.get serverHmacKeyVar []
    if !serverKeyRaw.isEmpty && environ.get panHmacKeyVar [] = serverKeyRaw then
      raise .runtimeError (("SECURITY VIOLATION: PAN_HMAC_KEY and SERVER_HMAC_KEY must be different keys. " ++
        "Using the same key for both PAN hashing and audit signing reduces security. " ++
        "Generate a separate key for PAN_HMAC_KEY.").toList)
    else .ok keyBytes

/-- A text is a key: it decodes to 32 bytes. -/
def IsKey (t : Text) (key : Bytes) : Prop := bytesFromHex t = .ok key ∧ key.length = 32

theorem IsKey.unique {t : Text} {k k' : Bytes} (h : IsKey t k) (h' : IsKey t k') : k = k' :=
  Except.ok.inj (h.1.symm.trans h'.1)

theorem bytesFromHex_nil : bytesFromHex [] = .ok [] := rfl

theorem IsKey.ne_nil {t : Text} {k : Bytes} (h : IsKey t k) : t ≠ [] := by
  rintro rfl
  have hk : [] = k := Except.ok.inj (bytesFromHex_nil.symm.trans h.1)
  have hl := h.2
  rw [← hk] at hl
  cases hl

/-- **When a key is loaded.** -/
theorem loadKey_eq_ok {environ : TextDict} {envVar : Text} {notHex : Text → Text} {wrongLength : Nat → Nat → Text}
    {key : Bytes} : loadKey environ envVar notHex wrongLength = .ok key ↔
      ∃ t, environ.get? envVar = some t ∧ IsKey t key := by
  unfold loadKey
  cases hg : environ.get? envVar with
  | none => simp [TextDict.get, hg]
  | some t =>
    simp only [TextDict.get, hg, Option.getD_some, Option.some.injEq, exists_eq_left']
    constructor
    · intro h
      split at h
      · exact absurd h (raise_ne_ok _ _ _)
      · split at h
        · exact absurd h (raise_ne_ok _ _ _)
        · rename_i k hk
          split at h
          · exact absurd h (raise_ne_ok _ _ _)
          · rename_i hl
            cases h
            exact ⟨hk, not_not.mp hl⟩
    · intro h
      rw [if_neg (by simpa using h.ne_nil), h.1]
      exact if_neg (not_not_intro h.2)

theorem loadHmacKey_eq_ok {environ : TextDict} {envVar : Text} {key : Bytes} :
    loadHmacKey environ envVar = .ok key ↔ ∃ t, environ.get? envVar = some t ∧ IsKey t key := loadKey_eq_ok

theorem loadPreviousHmacKey_of_isKey {environ : TextDict} {t : Text} {key : Bytes}
    (h : environ.get? serverHmacKeyPreviousVar = some t) (hk : IsKey t key) :
    loadPreviousHmacKey environ = some key := by
  have hne : ¬ t.isEmpty = true := by simpa using hk.ne_nil
  simp [loadPreviousHmacKey, TextDict.get, h, hne, hk.1, Except.toOption]

/-- Two environments with the same values of the variable give the same previous key. -/
theorem loadPreviousHmacKey_congr {e e' : TextDict}
    (h : e.get? serverHmacKeyPreviousVar = e'.get? serverHmacKeyPreviousVar) :
    loadPreviousHmacKey e = loadPreviousHmacKey e' := by
  rw [loadPreviousHmacKey, TextDict.get, h, loadPreviousHmacKey, TextDict.get]

namespace Process

variable (p : Process)

/-- `_get_server_hmac_key`. -/
def getServerHmacKey : Except PyExc Bytes × Process :=
  let r := fetch (loadHmacKey p.environ serverHmacKeyVar) p.serverHmacKey
  (r.1, { p with serverHmacKey := r.2 })

/-- `_get_previous_hmac_key`. -/
def getPreviousHmacKey : Option Bytes × Process :=
  let key := p.serverHmacKeyPrevious.or (loadPreviousHmacKey p.environ)
  (key, { p with serverHmacKeyPrevious := key })

/-- `_get_aes_key`. -/
def getAesKey : Except PyExc Bytes × Process :=
  let r := fetch (loadAesKey p.environ) p.aesKey
  (r.1, { p with aesKey := r.2 })

/-- `hmac_utils.invalidate_key_cache`. -/
def invalidateKeyCache : Process := { p with serverHmacKey := none, serverHmacKeyPrevious := none }

/-- `_get_pan_hmac_key`. -/
def getPanHmacKey : Except PyExc Bytes × Process :=
  let r := fetch (loadPanHmacKey p.environ) p.panHmacKey
  (r.1, { p with panHmacKey := r.2 })

/-- `invalidate_pan_key_cache`. -/
def invalidatePanKeyCache : Process := { p with panHmacKey := none }

/-- What the getters of the audit code give. -/
def keys : Keys := ⟨p.getServerHmacKey.1, p.getPreviousHmacKey.1, p.getAesKey.1⟩

/-- What the calls see of a process and keep. -/
structure View where
  environ : TextDict
  secretCache : TextDict
  loaded : Bool
  keys : Keys
  pan : Except PyExc Bytes

def view : View := ⟨p.environ, p.secretCache, p.loaded, p.keys, p.getPanHmacKey.1⟩

@[simp] theorem view_getServerHmacKey : p.getServerHmacKey.2.view = p.view := by
  simp only [view, keys, getServerHmacKey, getPreviousHmacKey, getAesKey, getPanHmacKey, fetch_fetch]

@[simp] theorem view_getPreviousHmacKey : p.getPreviousHmacKey.2.view = p.view := by
  simp only [view, keys, getServerHmacKey, getPreviousHmacKey, getAesKey, getPanHmacKey, Option.or_assoc,
    Option.or_self]

@[simp] theorem view_getAesKey : p.getAesKey.2.view = p.view := by
  simp only [view, keys, getServerHmacKey, getPreviousHmacKey, getAesKey, getPanHmacKey, fetch_fetch]

@[simp] theorem view_getPanHmacKey : p.getPanHmacKey.2.view = p.view := by
  simp only [view, keys, getServerHmacKey, getPreviousHmacKey, getAesKey, getPanHmacKey, fetch_fetch]

theorem keys_of_view {p q : Process} (h : q.view = p.view) : q.keys = p.keys := congrArg View.keys h

end Process

/-! ## Calls -/

namespace Process

variable (C : Crypto) (p : Process)

/-- `compute_record_hmac`. -/
def computeRecordHmac (agentOutputsHash : Text) (decisionId guidelineVersionId : PyStr) (writtenAt : Text) :
    Except PyExc Text × Process :=
  match p.getServerHmacKey with
  | (.error e, p) => (.error e, p)
  | (.ok key, p) =>
    ((buildHmacMessage agentOutputsHash decisionId guidelineVersionId writtenAt).map (C.hmac key), p)

/-- `verify_record_hmac`. -/
def verifyRecordHmac (storedHmac agentOutputsHash : Text) (decisionId guidelineVersionId : PyStr) (writtenAt : Text) :
    Except PyExc Bool × Process :=
  match buildHmacMessage agentOutputsHash decisionId guidelineVersionId writtenAt with
  | .error e => (.error e, p)
  | .ok message =>
    match p.getServerHmacKey with
    | (.error e, p) => (.error e, p)
    | (.ok currentKey, p) =>
      match compareDigest (lower storedHmac) (lower (C.hmac currentKey message)) with
      | .error e => (.error e, p)
      | .ok true => (.ok true, p)
      | .ok false =>
        match p.getPreviousHmacKey with
        | (some previousKey, p) => (compareDigest (lower storedHmac) (lower (C.hmac previousKey message)), p)
        | (none, p) => (.ok false, p)

/-- `encrypt_payload`, with the nonce it draws. -/
def encryptPayload (nonce : Nonce) (plaintext : Bytes) : Except PyExc Bytes × Process :=
  if plaintext.isEmpty then (raise .valueError "Cannot encrypt empty plaintext.".toList, p)
  else
    match p.getAesKey with
    | (.error e, p) => (.error e, p)
    | (.ok key, p) =>
      ((C.gcmEncrypt key nonce.val plaintext).map fun ciphertextWithTag => version :: (nonce.val ++ ciphertextWithTag),
        p)

/-- What `decrypt_payload` checks before it gets the key. -/
def checkWireFormat (encrypted : Bytes) : Except PyExc Unit :=
  match encrypted with
  | [] => raise .valueError "Cannot decrypt empty ciphertext.".toList
  | v :: _ =>
    if encrypted.length < minEncryptedLength then
      raise .valueError ("Encrypted payload too short: ".toList ++ decimal encrypted.length ++
        " bytes. Minimum is ".toList ++ decimal minEncryptedLength ++ " bytes.".toList)
    else if v ≠ version then
      raise .valueError ("Unsupported encryption version: 0x".toList ++ hexDigits 2 v.toNat ++
        ". Only version 0x".toList ++ hexDigits 2 version.toNat ++ " is supported.".toList)
    else .ok ()

/-- `decrypt_payload`. -/
def decryptPayload (encrypted : Bytes) : Except PyExc Bytes × Process :=
  match checkWireFormat encrypted with
  | .error e => (.error e, p)
  | .ok () =>
    match p.getAesKey with
    | (.error e, p) => (.error e, p)
    | (.ok key, p) =>
      match C.gcmDecrypt key (encrypted.tail.take nonceSize) (encrypted.tail.drop nonceSize) with
      | .error e => (.error e, p)
      | .ok (some plaintext) => (.ok plaintext, p)
      | .ok none => (raise .invalidTag ("AES-GCM authentication tag verification failed. ".toList ++
          "The payload may have been tampered with or the wrong key is being used.".toList), p)

variable {C} {p}

/-! ### The calls compute with the keys that the getters give -/

theorem computeRecordHmac_fst {h : Text} {d g : PyStr} {w : Text} :
    (p.computeRecordHmac C h d g w).1 = ComplianceLoop.computeRecordHmac C p.keys h d g w := by
  unfold computeRecordHmac ComplianceLoop.computeRecordHmac keys
  cases hk : p.getServerHmacKey with
  | mk r q => cases r <;> rfl

theorem view_computeRecordHmac {h : Text} {d g : PyStr} {w : Text} :
    (p.computeRecordHmac C h d g w).2.view = p.view := by
  have hv := p.view_getServerHmacKey
  unfold computeRecordHmac
  cases hk : p.getServerHmacKey with
  | mk r q =>
    rw [hk] at hv
    cases r <;> exact hv

theorem verifyRecordHmac_fst {s h : Text} {d g : PyStr} {w : Text} :
    (p.verifyRecordHmac C s h d g w).1 = ComplianceLoop.verifyRecordHmac C p.keys s h d g w := by
  unfold verifyRecordHmac ComplianceLoop.verifyRecordHmac
  cases buildHmacMessage h d g w with
  | error e => rfl
  | ok message =>
    -- getting the current key does not change what the previous one is
    have hv := keys_of_view p.view_getServerHmacKey
    have hs : p.keys.server = p.getServerHmacKey.1 := rfl
    simp only [ok_bind, hs]
    cases hk : p.getServerHmacKey with
    | mk r q =>
      rw [hk] at hv
      cases r with
      | error e => rfl
      | ok key =>
        simp only [ok_bind]
        cases compareDigest (lower s) (lower (C.hmac key message)) with
        | error e => rfl
        | ok current =>
          cases current with
          | true => rfl
          | false =>
            have hp : p.keys.previous = q.getPreviousHmacKey.1 := congrArg Keys.previous hv.symm
            simp only [ok_bind, hp, Bool.false_eq_true, if_false]
            cases q.getPreviousHmacKey with
            | mk o q => cases o <;> rfl

theorem view_verifyRecordHmac {s h : Text} {d g : PyStr} {w : Text} :
    (p.verifyRecordHmac C s h d g w).2.view = p.view := by
  unfold verifyRecordHmac
  cases buildHmacMessage h d g w with
  | error e => rfl
  | ok message =>
    have hv := p.view_getServerHmacKey
    simp only
    cases hk : p.getServerHmacKey with
    | mk r q =>
      rw [hk] at hv
      cases r with
      | error e => exact hv
      | ok key =>
        simp only
        cases compareDigest (lower s) (lower (C.hmac key message)) with
        | error e => exact hv
        | ok current =>
          cases current with
          | true => exact hv
          | false =>
            have hq := q.view_getPreviousHmacKey.trans hv
            simp only
            cases hr : q.getPreviousHmacKey with
            | mk o r =>
              rw [hr] at hq
              cases o <;> exact hq

theorem encryptPayload_fst {nonce : Nonce} {b : Bytes} :
    (p.encryptPayload C nonce b).1 = ComplianceLoop.encryptPayload C p.keys nonce b := by
  unfold encryptPayload ComplianceLoop.encryptPayload keys
  split
  · rfl
  · cases hk : p.getAesKey with
    | mk r q => cases r <;> rfl

theorem view_encryptPayload {nonce : Nonce} {b : Bytes} : (p.encryptPayload C nonce b).2.view = p.view := by
  have hv := p.view_getAesKey
  unfold encryptPayload
  split
  · rfl
  · cases hk : p.getAesKey with
    | mk r q =>
      rw [hk] at hv
      cases r <;> exact hv

theorem decryptPayload_fst {b : Bytes} :
    (p.decryptPayload C b).1 = ComplianceLoop.decryptPayload C p.keys b := by
  unfold decryptPayload ComplianceLoop.decryptPayload checkWireFormat keys
  cases b with
  | nil => rfl
  | cons v rest =>
    simp only [List.tail_cons]
    split
    · rename_i e he
      split at he
      · rename_i hl
        cases he
        rw [if_pos hl]
        rfl
      · rename_i hl
        rw [if_neg hl]
        split at he
        · rename_i hver
          cases he
          rw [if_pos hver]
          rfl
        · cases he
    · rename_i he
      split at he
      · cases he
      · rename_i hl
        rw [if_neg hl]
        split at he
        · cases he
        · rename_i hver
          rw [if_neg hver]
          cases hk : p.getAesKey with
          | mk r q =>
            cases r with
            | error e => rfl
            | ok key =>
              simp only [ok_bind]
              cases C.gcmDecrypt key (rest.take nonceSize) (rest.drop nonceSize) with
              | error e => rfl
              | ok decrypted => cases decrypted <;> rfl

theorem view_decryptPayload {b : Bytes} : (p.decryptPayload C b).2.view = p.view := by
  have hv := p.view_getAesKey
  unfold decryptPayload
  split
  · rfl
  · cases hk : p.getAesKey with
    | mk r q =>
      rw [hk] at hv
      cases r with
      | error e => exact hv
      | ok key =>
        simp only
        split <;> exact hv

end Process

end ComplianceLoop
