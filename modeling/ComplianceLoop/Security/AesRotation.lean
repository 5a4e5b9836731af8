import ComplianceLoop.Security.SecretsLoader

/-!
# Rotation of the AES key

`rotate_encryption`, and what a process reads after it: the AES key is cached at the first call that gets to it, and no
reload empties that cache. So a rotated payload is readable, and new payloads are encrypted under the new key, exactly
when no earlier call of the process got to the key or that key was the new one already (`readable_iff`).
-/

set_option autoImplicit false

namespace ComplianceLoop

open PyLib

namespace Process

variable (C : Crypto) (p : Process)

/-- `rotate_encryption`, with the nonce it draws. -/
def rotateEncryption (nonce : Nonce) (oldEncrypted : Bytes) (oldKeyHex : Text) (newKeyHex : Option Text) :
    Except PyExc Bytes × Process :=
  match bytesFromHex oldKeyHex with
  | .error exc => (raise .valueError ("old_key_hex is not valid hex: ".toList ++ exc.msg), p)
  | .ok oldKey =>
    if oldKey.length ≠ 32 then
      (raise .valueError ("old_key_hex must be 32 bytes. Got ".toList ++ decimal oldKey.length ++ ['.']), p)
    else match oldEncrypted with
      | [] => (raise .structError "unpack requires a buffer of 1 bytes".toList, p)
      | v :: rest =>
        if v ≠ version then (raise .valueError ("Unsupported version: 0x".toList ++ hexDigits 2 v.toNat), p)
        else match C.gcmDecrypt oldKey (rest.take nonceSize) (rest.drop nonceSize) with
          | .error exc => (.error exc, p)
          | .ok none => (raise .invalidTag [], p)
          | .ok (some plaintext) =>
            match newKeyHex with
            | none => p.encryptPayload C nonce plaintext
            | some newKeyHex =>
              match bytesFromHex newKeyHex with
              | .error exc => (raise .valueError ("new_key_hex is not valid hex: ".toList ++ exc.msg), p)
              | .ok newKey =>
                if newKey.length ≠ 32 then
                  (raise .valueError ("new_key_hex must be 32 bytes. Got ".toList ++ decimal newKey.length ++ ['.']), p)
                else
                  ((C.gcmEncrypt newKey nonce.val plaintext).map fun ciphertextWithTag =>
                    version :: (nonce.val ++ ciphertextWithTag), p)

variable {C} {p}

/-- **Rotation re-encrypts**, and leaves the process as it is. -/
theorem rotateEncryption_wire {k k' : Bytes} {t t' : Text} (haad : C.takesAad = true) (h : IsKey t k)
    (h' : IsKey t' k') (n n' : Nonce) (b : Bytes) :
    p.rotateEncryption C n' (wire C k n b) t (some t') = (.ok (wire C k' n' b), p) := by
  have hdecrypt : C.gcmDecrypt k n.val (C.aesEncrypt k n.val b) = .ok (some b) := by
    rw [Crypto.gcmDecrypt, C.aesDecrypt_aesEncrypt, Crypto.gcmCall_of_takesAad haad _ n.length_taken]
  rw [wire, rotateEncryption, h.1]
  simp only [h.2, ne_eq, not_true_eq_false, if_false, List.take_left' n.property, List.drop_left' n.property, hdecrypt,
    h'.1, h'.2, gcmEncrypt_wire haad]

/-- A rotation that returns has decrypted, so that the cipher takes the keyword. -/
theorem takesAad_of_rotateEncryption {nonce : Nonce} {b e : Bytes} {t : Text} {new : Option Text}
    (h : (p.rotateEncryption C nonce b t new).1 = .ok e) : C.takesAad = true := by
  by_contra haad
  rw [Bool.not_eq_true] at haad
  unfold rotateEncryption at h
  cases hold : bytesFromHex t with
  | error exc =>
    rw [hold] at h
    cases h
  | ok oldKey =>
    rw [hold] at h
    dsimp only at h
    split at h
    · cases h
    cases b with
    | nil => cases h
    | cons v rest =>
      dsimp only at h
      split at h
      · cases h
      obtain ⟨msg, hraise⟩ := Crypto.gcmCall_of_not_takesAad haad "decrypt".toList (rest.take nonceSize)
        (C.aesDecrypt oldKey (rest.take nonceSize) (rest.drop nonceSize))
      rw [Crypto.gcmDecrypt, hraise] at h
      cases h

end Process

/-! ## The cached key -/

/-- A call of the encryption module. -/
inductive AesCall where
  | encrypt (nonce : Nonce) (plaintext : Bytes)
  | decrypt (encrypted : Bytes)

namespace AesCall

/-- The call gets as far as the key. -/
def reachesKey : AesCall → Bool
  | encrypt _ plaintext => !plaintext.isEmpty
  | decrypt encrypted => returned (Process.checkWireFormat encrypted)

/-- The process after the call. -/
def run (C : Crypto) (p : Process) : AesCall → Process
  | encrypt nonce plaintext => (p.encryptPayload C nonce plaintext).2
  | decrypt encrypted => (p.decryptPayload C encrypted).2

variable {C : Crypto}

/-- **A call that gets to the key leaves it in the cache**, any other call leaves the process as it is. -/
theorem run_eq (p : Process) (c : AesCall) : c.run C p = if c.reachesKey then p.getAesKey.2 else p := by
  cases c with
  | encrypt nonce b =>
    rw [run, Process.encryptPayload, reachesKey]
    cases b with
    | nil => rfl
    | cons x b =>
      simp only [List.isEmpty_cons, Bool.false_eq_true, if_false, Bool.not_false, if_true]
      cases p.getAesKey with
      | mk r q => cases r <;> rfl
  | decrypt b =>
    rw [run, Process.decryptPayload, reachesKey]
    cases Process.checkWireFormat b with
    | error e => rfl
    | ok u =>
      simp only [returned_ok, if_true]
      cases p.getAesKey with
      | mk r q =>
        cases r with
        | error e => rfl
        | ok key =>
          simp only
          split <;> rfl

/-- The process after a list of calls. -/
def runAll (C : Crypto) (cs : List AesCall) (p : Process) : Process := cs.foldl (run C) p

theorem environ_run (p : Process) (c : AesCall) : (c.run C p).environ = p.environ := by
  rw [run_eq]
  split <;> rfl

/-- A cached key stays. -/
theorem aesKey_runAll_some (cs : List AesCall) {p : Process} {key : Bytes} (h : p.aesKey = some key) :
    (runAll C cs p).aesKey = some key := by
  induction cs generalizing p with
  | nil => exact h
  | cons c cs ih =>
    apply ih
    rw [run_eq]
    split
    · show (fetch (loadAesKey p.environ) p.aesKey).2 = some key
      rw [h, fetch_some]
    · exact h

/-- **The key in the cache after a list of calls.** -/
theorem aesKey_runAll (cs : List AesCall) {p : Process} (h : p.aesKey = none) :
    (runAll C cs p).aesKey = if cs.any reachesKey then (loadAesKey p.environ).toOption else none := by
  induction cs generalizing p with
  | nil => exact h
  | cons c cs ih =>
    show (runAll C cs (c.run C p)).aesKey = _
    rw [List.any_cons]
    cases hr : c.reachesKey with
    | false =>
      rw [run_eq, hr, if_neg (by simp), ih h, Bool.false_or]
    | true =>
      have hcell : (c.run C p).aesKey = (loadAesKey p.environ).toOption := by
        rw [run_eq, hr, if_pos rfl]
        show (fetch (loadAesKey p.environ) p.aesKey).2 = _
        rw [h]
        cases loadAesKey p.environ <;> rfl
      rw [Bool.true_or, if_pos rfl]
      cases hl : loadAesKey p.environ with
      | ok key =>
        rw [hl] at hcell
        exact aesKey_runAll_some cs hcell
      | error e =>
        rw [hl] at hcell
        rw [ih hcell, environ_run, hl]
        split <;> rfl

end AesCall

/-! ## After the rotation -/

variable {C : Crypto}

/-- A reload keeps the AES key that is cached and the variable that is set. -/
theorem reloadSecrets_aes {vault : Vault} {p q : Process} {t : Text} (ht : p.environ.get? aesKeyVar = some t)
    (h : p.reloadSecrets vault = (.ok (), q)) : q.aesKey = p.aesKey ∧ q.environ.get? aesKeyVar = some t := by
  cases hu : p.forgetSecrets.useVault with
  | false =>
    obtain rfl := Process.loadSecrets_environment rfl hu h
    exact ⟨rfl, ht⟩
  | true =>
    obtain ⟨held, environ, -, hi, -, rfl⟩ := Process.loadSecrets_vault rfl hu h
    refine ⟨rfl, ?_⟩
    show environ.get? aesKeyVar = some t
    have hf : p.forgetSecrets.environ.get? aesKeyVar = some t := ht
    rw [get?_injectSecrets held.nodup hi, hf, Option.some_or]

/-- The process reads the rotated payload, and what it encrypts can be read with the new key. -/
def Readable (C : Crypto) (p : Process) (newKey : Bytes) (rotated plaintext : Bytes) : Prop :=
  (p.decryptPayload C rotated).1 = .ok plaintext ∧
    ∀ nonce b, b ≠ [] → ∃ e, (p.encryptPayload C nonce b).1 = .ok e ∧
      decryptPayload C { p.keys with aes := .ok newKey } e = .ok b

/-- A process reads what was rotated to a key exactly when that is its key. -/
theorem readable_of_key {p : Process} {k key : Bytes} (haad : C.takesAad = true) (hk : p.keys.aes = .ok k)
    (hauth : k ≠ key → C.Authentic k key) (n : Nonce) {b : Bytes} (hb : b ≠ []) :
    Readable C p key (wire C key n b) b ↔ k = key := by
  constructor
  · rintro ⟨hd, -⟩
    rw [Process.decryptPayload_fst, decryptPayload_wire hk n hb] at hd
    by_contra hne
    rw [hauth hne n.val b] at hd
    cases hd.2
  · rintro rfl
    refine ⟨?_, fun n' b' hb' => ⟨wire C k n' b', ?_, ?_⟩⟩
    · rw [Process.decryptPayload_fst, decryptPayload_wire hk n hb]
      exact ⟨haad, C.aesDecrypt_aesEncrypt _ _ _⟩
    · rw [Process.encryptPayload_fst, encryptPayload_eq_ok]
      exact ⟨hb', haad, k, hk, rfl⟩
    · exact (decryptPayload_wire rfl n' hb').mpr ⟨haad, C.aesDecrypt_aesEncrypt _ _ _⟩

/-- **A payload that is rotated to a new key stays readable in a process with a history of calls exactly when none of
them got to the key, or the key they got is the new one.** -/
theorem readable_iff {p : Process} (hp : p.aesKey = none) (calls : List AesCall) {vault : Vault} {q : Process}
    {t t' : Text} {key newKey : Bytes} (hkey : IsKey t key) (hnew : IsKey t' newKey) {nonce nonce' : Nonce}
    {plaintext rotated : Bytes} (hne : plaintext ≠ [])
    (hrot : ((AesCall.runAll C calls p).rotateEncryption C nonce' (wire C key nonce plaintext) t (some t')).1 =
      .ok rotated)
    (hload : ({ AesCall.runAll C calls p with environ := p.environ.set aesKeyVar t' } : Process).reloadSecrets vault =
      (.ok (), q))
    (hauth : ∀ k, loadAesKey p.environ = .ok k → k ≠ newKey → C.Authentic k newKey) :
    Readable C q newKey rotated plaintext ↔
      calls.any AesCall.reachesKey = false ∨ ∀ k, loadAesKey p.environ = .ok k → k = newKey := by
  have haad := Process.takesAad_of_rotateEncryption hrot
  rw [Process.rotateEncryption_wire haad hkey hnew] at hrot
  obtain rfl := Except.ok.inj hrot
  obtain ⟨hcell, hvar⟩ := reloadSecrets_aes (TextDict.get?_set_self _ _ _) hload
  have hread : loadAesKey q.environ = .ok newKey := loadKey_eq_ok.mpr ⟨t', hvar, hnew⟩
  have hget : q.keys.aes = (fetch (.ok newKey) (AesCall.runAll C calls p).aesKey).1 := by
    rw [← hread, ← hcell]
    rfl
  rw [AesCall.aesKey_runAll calls hp] at hget
  cases hr : calls.any AesCall.reachesKey with
  | false =>
    rw [hr] at hget
    exact iff_of_true ((readable_of_key haad hget (fun h => absurd rfl h) nonce' hne).mpr rfl) (.inl rfl)
  | true =>
    rw [hr, if_pos rfl] at hget
    cases hl : loadAesKey p.environ with
    | error e =>
      rw [hl] at hget
      exact iff_of_true ((readable_of_key haad hget (fun h => absurd rfl h) nonce' hne).mpr rfl)
        (.inr fun k h => by cases h)
    | ok k =>
      rw [hl] at hget
      rw [readable_of_key haad hget (hauth k hl) nonce' hne]
      simp

namespace KeySample

/-- The process has encrypted the payload itself. -/
def encryptedHere : List AesCall := [.encrypt (nonce 0) plaintext]

theorem authentic : crypto.Authentic (key 2) (key 6) :=
  ciphers.decrypt_encrypt_of_ne (by decide) (by decide) (by decide) (by decide)

end KeySample

/-- The rotation of a payload that the process has encrypted itself. -/
theorem readable_iff_encryptedHere :
    Readable KeySample.crypto
        ((({ AesCall.runAll KeySample.crypto KeySample.encryptedHere (Process.start KeySample.environ) with
          environ := KeySample.environ.set aesKeyVar (KeySample.keyText 6) } : Process).reloadSecrets
            KeySample.noVault).2)
        (KeySample.key 6) (wire KeySample.crypto (KeySample.key 6) (KeySample.nonce 7) KeySample.plaintext)
        KeySample.plaintext ↔
      KeySample.encryptedHere.any AesCall.reachesKey = false ∨
        ∀ k, loadAesKey (Process.start KeySample.environ).environ = .ok k → k = KeySample.key 6 := by
  have hkey : IsKey (KeySample.keyText 2) (KeySample.key 2) := ⟨by decide, rfl⟩
  have hnew : IsKey (KeySample.keyText 6) (KeySample.key 6) := ⟨by decide, rfl⟩
  have hread : loadAesKey (Process.start KeySample.environ).environ = .ok (KeySample.key 2) := by decide
  have hrot : ((AesCall.runAll KeySample.crypto KeySample.encryptedHere
        (Process.start KeySample.environ)).rotateEncryption KeySample.crypto (KeySample.nonce 7)
          (wire KeySample.crypto (KeySample.key 2) (KeySample.nonce 0) KeySample.plaintext) (KeySample.keyText 2)
          (some (KeySample.keyText 6))).1 =
      .ok (wire KeySample.crypto (KeySample.key 6) (KeySample.nonce 7) KeySample.plaintext) := by
    decide
  have hload : (({ AesCall.runAll KeySample.crypto KeySample.encryptedHere (Process.start KeySample.environ) with
        environ := KeySample.environ.set aesKeyVar (KeySample.keyText 6) } : Process).reloadSecrets
          KeySample.noVault).1 = .ok () := by
    decide
  refine readable_iff rfl KeySample.encryptedHere hkey hnew (by decide) hrot (Prod.ext hload rfl) ?_
  intro k hk _
  obtain rfl : KeySample.key 2 = k := Except.ok.inj (hread.symm.trans hk)
  exact KeySample.authentic

/-- That payload cannot be read after the rotation. -/
theorem encryptedHere_not_readable :
    ¬ ∀ (p q : Process) (calls : List AesCall) (t t' : Text) (key newKey : Bytes) (nonce nonce' : Nonce)
        (plaintext rotated : Bytes), p.aesKey = none → IsKey t key → IsKey t' newKey → key ≠ newKey → plaintext ≠ [] →
      ((AesCall.runAll KeySample.crypto calls p).rotateEncryption KeySample.crypto nonce'
        (wire KeySample.crypto key nonce plaintext) t (some t')).1 = .ok rotated →
      ({ AesCall.runAll KeySample.crypto calls p with environ := p.environ.set aesKeyVar t' } : Process).reloadSecrets
        KeySample.noVault = (.ok (), q) →
      Readable KeySample.crypto q newKey rotated plaintext := by
  intro h
  have hread := h (Process.start KeySample.environ)
    ((({ AesCall.runAll KeySample.crypto KeySample.encryptedHere (Process.start KeySample.environ) with
      environ := KeySample.environ.set aesKeyVar (KeySample.keyText 6) } : Process).reloadSecrets KeySample.noVault).2)
    KeySample.encryptedHere (KeySample.keyText 2) (KeySample.keyText 6) (KeySample.key 2) (KeySample.key 6)
    (KeySample.nonce 0) (KeySample.nonce 7) KeySample.plaintext
    (wire KeySample.crypto (KeySample.key 6) (KeySample.nonce 7) KeySample.plaintext) rfl
    ⟨by decide, rfl⟩ ⟨by decide, rfl⟩ (by decide) (by decide) (by decide) (by decide)
  exact absurd hread.1 (by decide)

end ComplianceLoop
