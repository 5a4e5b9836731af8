import ComplianceLoop.Security.WireFormat

/-!
# Rotation and decryption

`rotate_encryption` parses the old payload itself. It has no check that the payload is empty or too short, and its two
ways of encrypting again differ: only `encrypt_payload` refuses an empty plaintext. So it does what a decryption under
the old key and an encryption under the new one do, except for an empty payload and for payloads of the version with 9
to 29 bytes; of these only the encryption of an empty plaintext is refused alike, and only when the current key is used
(`sameOutcome_iff`). When the cipher has no keyword `aad`, the payloads of the version with up to 8 bytes are exceptions
too: the decryption finds them too short, the rotation gets as far as the cipher.
-/

set_option autoImplicit false

namespace ComplianceLoop

open PyLib

/-- The keys of a process, with this AES key. -/
def Process.underKey (p : Process) (key : Bytes) : Keys := { p.keys with aes := .ok key }

/-- `new_key_hex` is this key; without it, it is the current one. -/
def IsNewKey (p : Process) (key : Bytes) : Option Text → Prop
  | some t => IsKey t key
  | none => p.keys.aes = .ok key

/-- The results of a decryption and a rotation agree: the rotated payload has the same plaintext under these keys, or
both calls raise the same exception. -/
def SameOutcome (C : Crypto) (keys : Keys) : Except PyExc Bytes → Except PyExc Bytes → Prop
  | .ok plaintext, .ok rotated => decryptPayload C keys rotated = .ok plaintext
  | .error e, .error e' => e'.type = e.type
  | _, _ => False

/-- Payloads for which the missing checks make no difference. -/
structure ChecksAlike (C : Crypto) (oldKey : Bytes) (newKeyHex : Option Text) (b : Bytes) : Prop where
  nonempty : b ≠ []
  length : b.head? ≠ some version ∨ minEncryptedLength ≤ b.length ∨
    C.takesAad = true ∧ (b.length ≤ 8 ∨ newKeyHex = none ∧ ∃ nonce, b = wire C oldKey nonce [])

section

variable {C : Crypto} {p : Process} {t : Text} {k : Bytes} {rest : Bytes}

/-! ## What the rotation does -/

theorem rotateEncryption_nil (hold : IsKey t k) (nonce : Nonce) (new : Option Text) :
    (p.rotateEncryption C nonce [] t new).1 = raise .structError "unpack requires a buffer of 1 bytes".toList := by
  rw [Process.rotateEncryption, hold.1]
  dsimp only
  rw [if_neg (not_not_intro hold.2)]

/-- A payload of another version is refused. -/
theorem rotateEncryption_other (hold : IsKey t k) (nonce : Nonce) (new : Option Text) {v : UInt8} (hv : v ≠ version) :
    ∃ msg, (p.rotateEncryption C nonce (v :: rest) t new).1 = raise .valueError msg := by
  rw [Process.rotateEncryption, hold.1]
  dsimp only
  rw [if_neg (not_not_intro hold.2), if_pos hv]
  exact ⟨_, rfl⟩

/-- What the cipher raises ends the rotation. -/
theorem rotateEncryption_error (hold : IsKey t k) (nonce : Nonce) (new : Option Text) {e : PyExc}
    (h : C.gcmDecrypt k (rest.take nonceSize) (rest.drop nonceSize) = .error e) :
    (p.rotateEncryption C nonce (version :: rest) t new).1 = .error e := by
  rw [Process.rotateEncryption, hold.1]
  dsimp only
  rw [if_neg (not_not_intro hold.2), if_neg (not_not_intro rfl), h]

/-- A payload of another version, or with too short a nonce, is refused. -/
theorem rotateEncryption_malformed (haad : C.takesAad = true) (hold : IsKey t k) (nonce : Nonce) (new : Option Text)
    {v : UInt8} (h : v ≠ version ∨ (rest.take nonceSize).length < 8) :
    ∃ msg, (p.rotateEncryption C nonce (v :: rest) t new).1 = raise .valueError msg := by
  by_cases hv : v = version
  · subst hv
    have hcall : C.gcmDecrypt k (rest.take nonceSize) (rest.drop nonceSize) =
        raise .valueError "Nonce must be between 8 and 128 bytes".toList := by
      rw [Crypto.gcmDecrypt, Crypto.gcmCall, if_pos haad, if_pos (.inl (h.resolve_left (not_not_intro rfl)))]
    exact ⟨_, rotateEncryption_error hold nonce new hcall⟩
  · exact rotateEncryption_other hold nonce new hv

/-- Any other payload is decrypted. -/
theorem rotateEncryption_version (haad : C.takesAad = true) (hold : IsKey t k) (nonce : Nonce) (new : Option Text)
    (h : ¬ (rest.take nonceSize).length < 8) :
    (C.aesDecrypt k (rest.take nonceSize) (rest.drop nonceSize) = none →
      (p.rotateEncryption C nonce (version :: rest) t new).1 = raise .invalidTag []) ∧
    ∀ q, C.aesDecrypt k (rest.take nonceSize) (rest.drop nonceSize) = some q →
      (new = none → (p.rotateEncryption C nonce (version :: rest) t new).1 = encryptPayload C p.keys nonce q) ∧
      ∀ t' k', new = some t' → IsKey t' k' →
        (p.rotateEncryption C nonce (version :: rest) t new).1 = .ok (wire C k' nonce q) := by
  have htaken : 8 ≤ (rest.take nonceSize).length ∧ (rest.take nonceSize).length ≤ 128 := by
    have hle := List.length_take_le nonceSize rest
    rw [nonceSize] at hle h ⊢
    omega
  have hcall : C.gcmDecrypt k (rest.take nonceSize) (rest.drop nonceSize) =
      .ok (C.aesDecrypt k (rest.take nonceSize) (rest.drop nonceSize)) :=
    Crypto.gcmCall_of_takesAad haad _ htaken _
  rw [Process.rotateEncryption, hold.1]
  dsimp only
  rw [if_neg (not_not_intro hold.2), if_neg (not_not_intro rfl), hcall]
  refine ⟨fun hnone => by rw [hnone], fun q hq => ⟨?_, ?_⟩⟩
  · rintro rfl
    rw [hq]
    exact Process.encryptPayload_fst
  · rintro t' k' rfl hnew
    rw [hq]
    dsimp only
    rw [hnew.1]
    dsimp only
    rw [if_neg (not_not_intro hnew.2)]
    exact gcmEncrypt_wire haad k' nonce q

/-- A plaintext that is not empty is encrypted under the new key. -/
theorem rotateEncryption_decrypted {k' q : Bytes} {new : Option Text} (haad : C.takesAad = true) (hold : IsKey t k)
    (hnew : IsNewKey p k' new) (nonce : Nonce) (h : ¬ (rest.take nonceSize).length < 8)
    (hdecrypt : C.aesDecrypt k (rest.take nonceSize) (rest.drop nonceSize) = some q) (hq : q ≠ []) :
    (p.rotateEncryption C nonce (version :: rest) t new).1 = .ok (wire C k' nonce q) := by
  obtain ⟨hcurrent, hother⟩ := (rotateEncryption_version (p := p) haad hold nonce new h).2 q hdecrypt
  cases new with
  | none =>
    rw [hcurrent rfl]
    exact encryptPayload_eq_ok.mpr ⟨hq, haad, k', hnew, rfl⟩
  | some t' => exact hother t' k' rfl hnew

/-! ## Where the two agree -/

/-- Payloads that look encrypted have the same outcome. -/
theorem sameOutcome_encrypted {k' : Bytes} {new : Option Text} (haad : C.takesAad = true) (hexact : C.Exact)
    (hold : IsKey t k)
    (hnew : IsNewKey p k' new) (nonce nonce' : Nonce) {c : Bytes} (hc : tagSize < c.length) :
    SameOutcome C (p.underKey k') (decryptPayload C (p.underKey k) (version :: (nonce'.val ++ c)))
      (p.rotateEncryption C nonce (version :: (nonce'.val ++ c)) t new).1 := by
  have htake : (nonce'.val ++ c).take nonceSize = nonce'.val := List.take_left' nonce'.property
  have hdrop : (nonce'.val ++ c).drop nonceSize = c := List.drop_left' nonce'.property
  have hlength : ¬ ((nonce'.val ++ c).take nonceSize).length < 8 := by
    rw [htake, nonce'.property]
    decide
  have hold' : (p.underKey k).aes = .ok k := rfl
  obtain ⟨msg, hparts⟩ := decryptPayload_parts (C := C) hold' nonce' hc
  rw [hparts, gcmDecrypt_nonce haad, ok_bind]
  cases hdecrypt : C.aesDecrypt k nonce'.val c with
  | none =>
    have hrefused := (rotateEncryption_version (p := p) haad hold nonce new hlength).1
    rw [htake, hdrop] at hrefused
    rw [hrefused hdecrypt]
    exact rfl
  | some q =>
    have hq : q ≠ [] := by
      rintro rfl
      rw [hexact.length hdecrypt] at hc
      exact absurd hc (by decide)
    have hparsed : C.aesDecrypt k ((nonce'.val ++ c).take nonceSize) ((nonce'.val ++ c).drop nonceSize) = some q := by
      rw [htake, hdrop, hdecrypt]
    rw [rotateEncryption_decrypted haad hold hnew nonce hlength hparsed hq]
    exact (decryptPayload_wire rfl nonce hq).mpr ⟨haad, C.aesDecrypt_aesEncrypt _ _ _⟩

/-- Payloads that are too short have the same outcome if the plaintext is empty and `encrypt_payload` refuses it. -/
theorem sameOutcome_short {k' : Bytes} {new : Option Text} (haad : C.takesAad = true) (hexact : C.Exact)
    (hold : IsKey t k)
    (hnew : IsNewKey p k' new) (nonce : Nonce) (h8 : ¬ (rest.take nonceSize).length < 8)
    (hshort : (version :: rest).length < minEncryptedLength) :
    SameOutcome C (p.underKey k') (decryptPayload C (p.underKey k) (version :: rest))
        (p.rotateEncryption C nonce (version :: rest) t new).1 ↔
      new = none ∧ ∃ nonce', version :: rest = wire C k nonce' [] := by
  have hmalformed : isEncrypted (version :: rest) = false := by rw [isEncrypted, if_pos hshort]
  obtain ⟨msg, hraise⟩ := decryptPayload_malformed C (p.underKey k) hmalformed
  obtain ⟨hrefused, hrotated⟩ := rotateEncryption_version (p := p) haad hold nonce new h8
  rw [hraise]
  cases hdecrypt : C.aesDecrypt k (rest.take nonceSize) (rest.drop nonceSize) with
  | none =>
    rw [hrefused hdecrypt]
    refine iff_of_false ?_ ?_
    · rintro ⟨⟩
    · rintro ⟨-, nonce', hwire⟩
      rw [wire, List.cons.injEq] at hwire
      rw [hwire.2, List.take_left' nonce'.property, List.drop_left' nonce'.property,
        C.aesDecrypt_aesEncrypt] at hdecrypt
      cases hdecrypt
  | some q =>
    -- the ciphertext is a tag, so the nonce before it has its length
    have hlength := hexact.length hdecrypt
    rw [List.length_cons, minEncryptedLength, tagSize, nonceSize] at hshort
    rw [List.length_drop, nonceSize] at hlength
    obtain rfl : q = [] := List.eq_nil_of_length_eq_zero (by omega)
    have htake : (rest.take nonceSize).length = nonceSize := by
      rw [List.length_take, nonceSize]
      omega
    have hwire : version :: rest = wire C k ⟨rest.take nonceSize, htake⟩ [] := by
      rw [wire, ← hexact hdecrypt, List.take_append_drop]
    cases new with
    | none =>
      rw [(hrotated [] hdecrypt).1 rfl]
      exact iff_of_true rfl ⟨rfl, _, hwire⟩
    | some t' =>
      rw [(hrotated [] hdecrypt).2 t' k' rfl hnew]
      exact iff_of_false id fun h => by cases h.1

/-- What has another version, or too short a nonce, does not look encrypted. -/
theorem isEncrypted_eq_false {v : UInt8} (h : v ≠ version ∨ (rest.take nonceSize).length < 8) :
    isEncrypted (v :: rest) = false := by
  refine Bool.eq_false_iff.mpr fun hform => ?_
  obtain ⟨nonce', c, hb, -⟩ := isEncrypted_iff.mp hform
  obtain ⟨rfl, rfl⟩ := List.cons.inj hb
  rw [List.take_left' nonce'.property, nonce'.property] at h
  exact h.elim (fun hne => hne rfl) (by decide)

/-- A payload that both parsers refuse. -/
theorem sameOutcome_malformed (keys : Keys) {nonce : Nonce} {new : Option Text} {v : UInt8}
    (h : v ≠ version ∨ (rest.take nonceSize).length < 8)
    (hrotate : ∃ msg, (p.rotateEncryption C nonce (v :: rest) t new).1 = raise .valueError msg) :
    SameOutcome C keys (decryptPayload C (p.underKey k) (v :: rest))
      (p.rotateEncryption C nonce (v :: rest) t new).1 := by
  obtain ⟨msg, hraise⟩ := decryptPayload_malformed C (p.underKey k) (isEncrypted_eq_false h)
  obtain ⟨msg', hrotate⟩ := hrotate
  rw [hraise, hrotate]
  exact rfl

/-- With the keyword, the two agree on payloads of the version that are long enough, have too short a nonce, or are an
empty plaintext that `encrypt_payload` refuses. -/
theorem sameOutcome_version {k' : Bytes} {new : Option Text} (haad : C.takesAad = true) (hexact : C.Exact)
    (hold : IsKey t k) (hnew : IsNewKey p k' new) (nonce : Nonce) (rest : Bytes) :
    SameOutcome C (p.underKey k') (decryptPayload C (p.underKey k) (version :: rest))
        (p.rotateEncryption C nonce (version :: rest) t new).1 ↔
      minEncryptedLength ≤ (version :: rest).length ∨ (version :: rest).length ≤ 8 ∨
        new = none ∧ ∃ nonce', version :: rest = wire C k nonce' [] := by
  have hlengths : (rest.take nonceSize).length < 8 ↔ (version :: rest).length ≤ 8 := by
    rw [List.length_take, List.length_cons, nonceSize]
    omega
  by_cases h8 : (rest.take nonceSize).length < 8
  · have hrotate := rotateEncryption_malformed (p := p) haad hold nonce new (v := version) (.inr h8)
    exact iff_of_true (sameOutcome_malformed _ (.inr h8) hrotate) (.inr (.inl (hlengths.mp h8)))
  by_cases hshort : (version :: rest).length < minEncryptedLength
  · rw [sameOutcome_short haad hexact hold hnew nonce h8 hshort]
    refine ⟨fun h => .inr (.inr h), fun h => ?_⟩
    obtain hlong | hlength | hempty := h
    · exact absurd hshort (Nat.not_lt.mpr hlong)
    · exact absurd (hlengths.mpr hlength) h8
    · exact hempty
  · have hform : isEncrypted (version :: rest) = true := by rw [isEncrypted, if_neg hshort, beq_self_eq_true]
    obtain ⟨nonce', c, hb, hc⟩ := isEncrypted_iff.mp hform
    refine iff_of_true ?_ (.inl (Nat.not_lt.mp hshort))
    rw [hb]
    exact sameOutcome_encrypted haad hexact hold hnew nonce nonce' hc

/-- Without the keyword, the two agree on payloads of the version exactly when these are long enough: otherwise only the
decryption notices that they are too short. -/
theorem sameOutcome_version_noAad {k' : Bytes} (new : Option Text) (haad : C.takesAad = false) (hold : IsKey t k)
    (nonce : Nonce) (rest : Bytes) :
    SameOutcome C (p.underKey k') (decryptPayload C (p.underKey k) (version :: rest))
        (p.rotateEncryption C nonce (version :: rest) t new).1 ↔ minEncryptedLength ≤ (version :: rest).length := by
  obtain ⟨msg, hcall⟩ := Crypto.gcmCall_of_not_takesAad haad "decrypt".toList (rest.take nonceSize)
    (C.aesDecrypt k (rest.take nonceSize) (rest.drop nonceSize))
  rw [rotateEncryption_error hold nonce new hcall]
  by_cases hshort : (version :: rest).length < minEncryptedLength
  · obtain ⟨msg', hraise⟩ := decryptPayload_malformed C (p.underKey k) (b := version :: rest)
      (by rw [isEncrypted, if_pos hshort])
    rw [hraise]
    refine iff_of_false ?_ (Nat.not_le.mpr hshort)
    rintro ⟨⟩
  · have hform : isEncrypted (version :: rest) = true := by rw [isEncrypted, if_neg hshort, beq_self_eq_true]
    obtain ⟨nonce', c, hb, hc⟩ := isEncrypted_iff.mp hform
    have hkey : (p.underKey k).aes = .ok k := rfl
    obtain ⟨msg', hparts⟩ := decryptPayload_parts (C := C) hkey nonce' hc
    obtain ⟨msg'', hcall'⟩ := Crypto.gcmCall_of_not_takesAad haad "decrypt".toList nonce'.val
      (C.aesDecrypt k nonce'.val c)
    rw [hb, hparts, Crypto.gcmDecrypt, hcall']
    exact iff_of_true rfl (hb ▸ Nat.not_lt.mp hshort)

/-- **A rotation does what a decryption under the old key and an encryption under the new one do, if and only if the
missing checks make no difference.** -/
theorem sameOutcome_iff {k' : Bytes} {new : Option Text} (hexact : C.Exact) (hold : IsKey t k)
    (hnew : IsNewKey p k' new) (nonce : Nonce) (b : Bytes) :
    SameOutcome C (p.underKey k') (decryptPayload C (p.underKey k) b) (p.rotateEncryption C nonce b t new).1 ↔
      ChecksAlike C k new b := by
  cases b with
  | nil =>
    rw [rotateEncryption_nil hold]
    refine iff_of_false ?_ fun h => h.nonempty rfl
    rintro ⟨⟩
  | cons v rest =>
    by_cases hv : v = version
    · subst hv
      have hhead : (version :: rest).head? = some version := rfl
      cases haad : C.takesAad with
      | true =>
        rw [sameOutcome_version haad hexact hold hnew]
        refine ⟨fun h => ⟨List.cons_ne_nil _ _, .inr (h.imp_right fun h => ⟨haad, h⟩)⟩, fun h => ?_⟩
        exact (h.length.resolve_left (not_not_intro hhead)).imp_right And.right
      | false =>
        rw [sameOutcome_version_noAad new haad hold]
        refine ⟨fun h => ⟨List.cons_ne_nil _ _, .inr (.inl h)⟩, fun h => ?_⟩
        refine (h.length.resolve_left (not_not_intro hhead)).resolve_right fun h => ?_
        rw [haad] at h
        exact Bool.false_ne_true h.1
    · refine iff_of_true ?_ ⟨List.cons_ne_nil v rest, .inl fun hhead => hv (Option.some.inj hhead)⟩
      exact sameOutcome_malformed _ (.inl hv) (rotateEncryption_other hold nonce new hv)

end

namespace KeySample

theorem isKey_old : IsKey (keyText 2) (key 2) := ⟨by decide, rfl⟩

theorem isNewKey : IsNewKey (Process.start environ) (key 6) (some (keyText 6)) := And.intro (by decide) rfl

end KeySample

/-- The rotation of a payload that was encrypted under the old key. -/
theorem sameOutcome_iff_payload :
    SameOutcome KeySample.crypto.exact ((Process.start KeySample.environ).underKey (KeySample.key 6))
        (decryptPayload KeySample.crypto.exact ((Process.start KeySample.environ).underKey (KeySample.key 2))
          (wire KeySample.crypto.exact (KeySample.key 2) (KeySample.nonce 0) KeySample.plaintext))
        ((Process.start KeySample.environ).rotateEncryption KeySample.crypto.exact (KeySample.nonce 7)
          (wire KeySample.crypto.exact (KeySample.key 2) (KeySample.nonce 0) KeySample.plaintext) (KeySample.keyText 2)
          (some (KeySample.keyText 6))).1 ↔
      ChecksAlike KeySample.crypto.exact (KeySample.key 2) (some (KeySample.keyText 6))
        (wire KeySample.crypto.exact (KeySample.key 2) (KeySample.nonce 0) KeySample.plaintext) :=
  sameOutcome_iff (Crypto.exact_exact _) KeySample.isKey_old KeySample.isNewKey (KeySample.nonce 7) _

/-- An empty payload is refused with an exception of `struct`. -/
theorem rotate_empty_payload :
    ¬ ∀ (C : Crypto) (p : Process) (t : Text) (k k' : Bytes) (new : Option Text) (nonce : Nonce) (b : Bytes), C.Exact →
      IsKey t k → IsNewKey p k' new →
      SameOutcome C (p.underKey k') (decryptPayload C (p.underKey k) b) (p.rotateEncryption C nonce b t new).1 := by
  intro h
  have hsame := h KeySample.crypto.exact (Process.start KeySample.environ) (KeySample.keyText 2) (KeySample.key 2)
    (KeySample.key 6) (some (KeySample.keyText 6)) (KeySample.nonce 7) [] (Crypto.exact_exact _)
    KeySample.isKey_old KeySample.isNewKey
  rw [rotateEncryption_nil KeySample.isKey_old] at hsame
  cases hsame

end ComplianceLoop
