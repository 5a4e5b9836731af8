import ComplianceLoop.PyLib.JsonOrder
import ComplianceLoop.PyLib.Uuid

/-!
# Hashes, MACs and authenticated encryption

A `Crypto` is what the program uses of `hashlib`, `hmac` and `AESGCM`: hexadecimal digests and MACs in lower case, and
an AEAD that undoes its own encryption and adds sixteen octets. The program passes the associated data as a keyword
`aad`. A version of the package that does not have it, as the one that is pinned, raises a `TypeError` at each call
(`gcmEncrypt`, `gcmDecrypt`). The usual assumptions on the primitives are propositions of their own (`ShaInjective`,
`HmacInjective`, `HmacBinding`, `HmacKeyed`, `Authentic`, `Exact`), so that a result names the ones it rests on.

No function into texts of one length is injective. `knownCrypto` meets all of the assumptions and can be computed with:
it has the answers of the real functions for the inputs of its tables, and writes any other input out in hexadecimal.
-/

set_option autoImplicit false

namespace PyLib

/-- The primitives. -/
structure Crypto where
  /-- `hashlib.sha256(data).hexdigest()` -/
  sha256 : Bytes → Text
  /-- `hmac.new(key, message, "sha256").hexdigest()` -/
  hmac : Bytes → Bytes → Text
  /-- whether the methods of `AESGCM` have a keyword `aad` -/
  takesAad : Bool
  /-- `AESGCM(key).encrypt(nonce, data, None)` -/
  aesEncrypt : Bytes → Bytes → Bytes → Bytes
  /-- `AESGCM(key).decrypt(nonce, data, None)`; `none` where it raises `InvalidTag` -/
  aesDecrypt : Bytes → Bytes → Bytes → Option Bytes
  sha256_lowerHex : ∀ b, LowerHex (sha256 b)
  hmac_lowerHex : ∀ k m, LowerHex (hmac k m)
  aesDecrypt_aesEncrypt : ∀ k n p, aesDecrypt k n (aesEncrypt k n p) = some p
  length_aesEncrypt : ∀ k n p, (aesEncrypt k n p).length = p.length + 16

namespace Crypto

variable (C : Crypto)

/-- No two byte strings have one digest. -/
def ShaInjective : Prop := Function.Injective C.sha256

/-- Under each key, no two messages have one MAC. -/
def HmacInjective : Prop := ∀ k, Function.Injective (C.hmac k)

/-- A MAC belongs to one message, whatever the keys are. -/
def HmacBinding : Prop := ∀ {k k' m m'}, C.hmac k m = C.hmac k' m' → m = m'

/-- No two keys of 32 bytes give one MAC to a message. -/
def HmacKeyed : Prop := ∀ {k k' m}, k.length = 32 → k'.length = 32 → C.hmac k m = C.hmac k' m → k = k'

/-- What is encrypted under the second key is refused under the first. -/
def Authentic (k k' : Bytes) : Prop := ∀ n p, C.aesDecrypt k n (C.aesEncrypt k' n p) = none

/-- Only the encryption of a plaintext is decrypted to it. -/
def Exact : Prop := ∀ {k n c p}, C.aesDecrypt k n c = some p → c = C.aesEncrypt k n p

/-- A call of a method of `AESGCM` with `aad=None`: the keyword is checked before the nonce. -/
def gcmCall {α : Type} (method : Text) (nonce : Bytes) (result : α) : Except PyExc α :=
  if C.takesAad then
    if nonce.length < 8 ∨ 128 < nonce.length then raise .valueError "Nonce must be between 8 and 128 bytes".toList
    else .ok result
  else raise .typeError ("AESGCM.".toList ++ method ++ "() got an unexpected keyword argument 'aad'".toList)

/-- `AESGCM(key).encrypt(nonce, data, aad=None)`. -/
def gcmEncrypt (key nonce data : Bytes) : Except PyExc Bytes :=
  C.gcmCall "encrypt".toList nonce (C.aesEncrypt key nonce data)

/-- `AESGCM(key).decrypt(nonce, data, aad=None)`; `none` where it raises `InvalidTag`. -/
def gcmDecrypt (key nonce data : Bytes) : Except PyExc (Option Bytes) :=
  C.gcmCall "decrypt".toList nonce (C.aesDecrypt key nonce data)

variable {C}

/-- Without the keyword, a call raises. -/
theorem gcmCall_of_not_takesAad {α : Type} (h : C.takesAad = false) (method : Text) (nonce : Bytes) (result : α) :
    ∃ msg, C.gcmCall method nonce result = raise .typeError msg := by
  rw [gcmCall, h]
  exact ⟨_, if_neg Bool.false_ne_true⟩

/-- With it, a nonce of a usual length is taken. -/
theorem gcmCall_of_takesAad {α : Type} (h : C.takesAad = true) (method : Text) {nonce : Bytes}
    (hnonce : 8 ≤ nonce.length ∧ nonce.length ≤ 128) (result : α) : C.gcmCall method nonce result = .ok result := by
  rw [gcmCall, if_pos h, if_neg (by omega)]

/-- A call that returns. -/
theorem takesAad_of_gcmCall {α : Type} {method : Text} {nonce : Bytes} {result r : α}
    (h : C.gcmCall method nonce result = .ok r) : C.takesAad = true ∧ result = r := by
  unfold gcmCall at h
  split at h
  · rename_i haad
    split at h
    · cases h
    · exact ⟨haad, Except.ok.inj h⟩
  · cases h

/-- What is decrypted is longer by a tag. -/
theorem Exact.length (h : C.Exact) {k n c p : Bytes} (hc : C.aesDecrypt k n c = some p) : c.length = p.length + 16 := by
  rw [h hc, C.length_aesEncrypt]

theorem HmacBinding.injective (h : C.HmacBinding) : C.HmacInjective := fun _ _ _ he => h he

@[simp] theorem lower_sha256 (b : Bytes) : lower (C.sha256 b) = C.sha256 b := lower_of_lowerHex (C.sha256_lowerHex b)

@[simp] theorem lower_hmac (k m : Bytes) : lower (C.hmac k m) = C.hmac k m := lower_of_lowerHex (C.hmac_lowerHex k m)

@[simp] theorem isAscii_sha256 (b : Bytes) : isAscii (C.sha256 b) = true := isAscii_of_lowerHex (C.sha256_lowerHex b)

@[simp] theorem isAscii_hmac (k m : Bytes) : isAscii (C.hmac k m) = true := isAscii_of_lowerHex (C.hmac_lowerHex k m)

end Crypto

/-! ## Known answers -/

/-- The lowest `w` octets of a number, the highest first, before others. -/
def octetsBefore : Nat → Nat → Bytes → Bytes
  | 0, _, b => b
  | w + 1, n, b => octetsBefore w (n / 256) (UInt8.ofNat n :: b)

/-- Octets that are written as numbers of given widths. -/
def octets (ns : List (Nat × Nat)) : Bytes := ns.flatMap fun p => octetsBefore p.1 p.2 []

/-- `b.hex()`. -/
def hexBytes (b : Bytes) : Text := b.flatMap fun x => hexDigits 2 x.toNat

/-- The hexadecimal text of 32 octets that are written as a number. -/
def digestText (n : Nat) : Text := hexBytes (octetsBefore 32 n [])

theorem lowerHex_hexBytes (b : Bytes) : LowerHex (hexBytes b) := fun c hc => by
  obtain ⟨x, -, hx⟩ := List.mem_flatMap.mp hc
  exact lowerHex_hexDigits 2 _ c hx

theorem length_hexBytes (b : Bytes) : (hexBytes b).length = 2 * b.length := by
  induction b with
  | nil => rfl
  | cons x b ih =>
    rw [hexBytes, List.flatMap_cons, List.length_append, length_hexDigits, ← hexBytes, ih, List.length_cons]
    omega

theorem hexBytes_injective : Function.Injective hexBytes := by
  intro a
  induction a with
  | nil =>
    rintro (_ | ⟨y, b⟩) h
    · rfl
    · simp [hexBytes, hexDigits] at h
  | cons x a ih =>
    rintro (_ | ⟨y, b⟩) h
    · simp [hexBytes, hexDigits] at h
    · simp only [hexBytes, List.flatMap_cons] at h
      obtain ⟨hx, hb⟩ := List.append_inj h (by rw [length_hexDigits, length_hexDigits])
      have hv := congrArg (hexTail 0) hx
      rw [hexTail_hexDigits 0 2 _ x.toNat_lt, hexTail_hexDigits 0 2 _ y.toNat_lt, Option.some.injEq] at hv
      rw [UInt8.toNat_inj.mp (by omega : x.toNat = y.toNat), ih hb]

/-- A key and a message as one byte string: the length of the key in unary, then both. -/
def framed (k m : Bytes) : Bytes := List.replicate k.length 1 ++ 0 :: (k ++ m)

theorem framed_inj {k k' m m' : Bytes} (h : framed k m = framed k' m') : k = k' ∧ m = m' := by
  have hr : ∀ {i j : Nat} {s t : Bytes}, List.replicate i 1 ++ 0 :: s = List.replicate j 1 ++ 0 :: t →
      i = j ∧ s = t := by
    intro i
    induction i with
    | zero =>
      rintro (_ | j) s t h
      · exact ⟨rfl, (List.cons.inj h).2⟩
      · simp [List.replicate_succ] at h
    | succ i ih =>
      rintro (_ | j) s t h
      · simp [List.replicate_succ] at h
      · simp only [List.replicate_succ, List.cons_append, List.cons.injEq, true_and] at h
        obtain ⟨hij, hst⟩ := ih h
        exact ⟨congrArg (· + 1) hij, hst⟩
  obtain ⟨hl, h⟩ := hr h
  exact List.append_inj h hl

theorem framed_injective : Function.Injective fun p : Bytes × Bytes => framed p.1 p.2 := fun p q hpq => by
  obtain ⟨h1, h2⟩ := framed_inj hpq
  exact Prod.ext h1 h2

/-- Inputs with the digests that the real function gives for them. -/
structure DigestTable (α : Type) where
  entries : List (α × Text)
  form : ∀ e ∈ entries, LowerHex e.2 ∧ e.2.length = 64
  distinct : (entries.map Prod.snd).Nodup

namespace DigestTable

variable {α : Type} [DecidableEq α] (T : DigestTable α) (enc : α → Bytes)

/-- The digest of the table, and for any other input the input itself in hexadecimal, with a digit before it. -/
def digest (a : α) : Text := (getItem a T.entries).getD ('0' :: hexBytes (enc a))

theorem digest_of_mem {a : α} {t : Text} (h : getItem a T.entries = some t) :
    (a, t) ∈ T.entries ∧ T.digest enc a = t := ⟨getItem_mem h, by rw [digest, h]; rfl⟩

theorem digest_of_none {a : α} (h : getItem a T.entries = none) : T.digest enc a = '0' :: hexBytes (enc a) := by
  rw [digest, h]
  rfl

theorem lowerHex_digest (a : α) : LowerHex (T.digest enc a) := by
  cases h : getItem a T.entries with
  | some t =>
    obtain ⟨hm, he⟩ := T.digest_of_mem enc h
    rw [he]
    exact (T.form _ hm).1
  | none =>
    rw [T.digest_of_none enc h]
    intro c hc
    rcases List.mem_cons.mp hc with rfl | hc
    · decide
    · exact lowerHex_hexBytes _ c hc

/-- A digest of the table has an even length, any other an odd one. -/
theorem length_digest_ne {a b : α} {t : Text} (ha : getItem a T.entries = some t) (hb : getItem b T.entries = none) :
    T.digest enc a ≠ T.digest enc b := by
  intro h
  obtain ⟨hm, he⟩ := T.digest_of_mem enc ha
  have hl := congrArg List.length h
  rw [he, T.digest_of_none enc hb, (T.form _ hm).2, List.length_cons, length_hexBytes] at hl
  omega

theorem digest_injective (henc : Function.Injective enc) : Function.Injective (T.digest enc) := by
  intro a b h
  cases ha : getItem a T.entries with
  | some s =>
    cases hb : getItem b T.entries with
    | some t =>
      obtain ⟨hma, hea⟩ := T.digest_of_mem enc ha
      obtain ⟨hmb, heb⟩ := T.digest_of_mem enc hb
      have hst : s = t := hea.symm.trans (h.trans heb)
      exact congrArg Prod.fst (List.inj_on_of_nodup_map T.distinct hma hmb hst)
    | none => exact absurd h (T.length_digest_ne enc ha hb)
  | none =>
    cases hb : getItem b T.entries with
    | some t => exact absurd h.symm (T.length_digest_ne enc hb ha)
    | none =>
      rw [T.digest_of_none enc ha, T.digest_of_none enc hb] at h
      exact henc (hexBytes_injective (List.cons.inj h).2)

end DigestTable

/-- Sixteen octets that depend on the key and the nonce. -/
def plainTag (k n : Bytes) : Bytes := (k ++ n ++ List.replicate 16 0).take 16

theorem length_plainTag (k n : Bytes) : (plainTag k n).length = 16 := by
  simp only [plainTag, List.length_take, List.length_append, List.length_replicate]
  omega

/-- A key, a nonce and a plaintext, with the ciphertext that the real function gives for them. -/
structure CipherEntry where
  key : Bytes
  nonce : Bytes
  plaintext : Bytes
  ciphertext : Bytes
  length : ciphertext.length = plaintext.length + 16
  tag : ciphertext.drop (ciphertext.length - 16) ≠ plainTag key nonce

/-- Such entries with different ciphertexts. -/
structure CipherTable where
  entries : List CipherEntry
  distinct : (entries.map CipherEntry.ciphertext).Nodup

namespace CipherTable

variable (T : CipherTable)

def encryptEntry? (k n p : Bytes) : Option CipherEntry :=
  T.entries.find? fun e => e.key = k ∧ e.nonce = n ∧ e.plaintext = p

def decryptEntry? (k n c : Bytes) : Option CipherEntry :=
  T.entries.find? fun e => e.key = k ∧ e.nonce = n ∧ e.ciphertext = c

/-- The ciphertext of the table, and for any other input the plaintext with a tag. -/
def encrypt (k n p : Bytes) : Bytes :=
  match T.encryptEntry? k n p with
  | some e => e.ciphertext
  | none => p ++ plainTag k n

def decrypt (k n c : Bytes) : Option Bytes :=
  match T.decryptEntry? k n c with
  | some e => some e.plaintext
  | none => if c.drop (c.length - 16) = plainTag k n then some (c.take (c.length - 16)) else none

theorem decrypt_encrypt (k n p : Bytes) : T.decrypt k n (T.encrypt k n p) = some p := by
  unfold encrypt
  split
  · rename_i e he
    have hm := List.mem_of_find?_eq_some he
    obtain ⟨rfl, rfl, rfl⟩ : e.key = k ∧ e.nonce = n ∧ e.plaintext = p := by simpa using List.find?_some he
    unfold decrypt
    split
    · rename_i e' he'
      have hc : e'.ciphertext = e.ciphertext := by
        have hp : e'.key = e.key ∧ e'.nonce = e.nonce ∧ e'.ciphertext = e.ciphertext := by
          simpa using List.find?_some he'
        exact hp.2.2
      rw [List.inj_on_of_nodup_map T.distinct (List.mem_of_find?_eq_some he') hm hc]
    · rename_i he'
      exact absurd (List.find?_eq_none.mp he' e hm) (by simp)
  · unfold decrypt
    split
    · rename_i e' he'
      -- a ciphertext of the table does not end in such a tag
      obtain ⟨hk, hn, hc⟩ : e'.key = k ∧ e'.nonce = n ∧ e'.ciphertext = p ++ plainTag k n := by
        simpa using List.find?_some he'
      refine absurd ?_ e'.tag
      rw [hk, hn, hc]
      simp [length_plainTag]
    · simp [length_plainTag]

/-- Keys that begin with different octets, neither of them the tag of an entry, refuse each other's ciphertexts. -/
theorem decrypt_encrypt_of_ne {k k' : Bytes} (hk : 16 ≤ k.length) (hk' : 16 ≤ k'.length) (hne : k.take 16 ≠ k'.take 16)
    (ht : ∀ e ∈ T.entries, ∀ t ∈ [k.take 16, k'.take 16], e.ciphertext.drop (e.ciphertext.length - 16) ≠ t)
    (n p : Bytes) : T.decrypt k n (T.encrypt k' n p) = none := by
  have htag : ∀ {j : Bytes}, 16 ≤ j.length → plainTag j n = j.take 16 := fun hj => by
    rw [plainTag, List.append_assoc, List.take_append_of_le_length hj]
  unfold encrypt
  split
  · rename_i e he
    have hm := List.mem_of_find?_eq_some he
    obtain ⟨rfl, rfl, rfl⟩ : e.key = k' ∧ e.nonce = n ∧ e.plaintext = p := by simpa using List.find?_some he
    unfold decrypt
    split
    · rename_i e' he'
      obtain ⟨hkey, -, hc⟩ : e'.key = k ∧ e'.nonce = e.nonce ∧ e'.ciphertext = e.ciphertext := by
        simpa using List.find?_some he'
      have heq : e' = e := List.inj_on_of_nodup_map T.distinct (List.mem_of_find?_eq_some he') hm hc
      exact absurd (congrArg (List.take 16) (heq ▸ hkey)) (Ne.symm hne)
    · rw [if_neg]
      rw [htag hk]
      exact ht e hm _ List.mem_cons_self
  · unfold decrypt
    split
    · rename_i e' he'
      have hc : e'.ciphertext = p ++ plainTag k' n := by
        have hp : e'.key = k ∧ e'.nonce = n ∧ e'.ciphertext = p ++ plainTag k' n := by simpa using List.find?_some he'
        exact hp.2.2
      refine absurd ?_ (ht e' (List.mem_of_find?_eq_some he') _ (List.mem_cons_of_mem _ (List.mem_singleton_self _)))
      rw [hc, ← htag hk']
      simp [length_plainTag]
    · have hdrop : (p ++ plainTag k' n).drop ((p ++ plainTag k' n).length - 16) = plainTag k' n := by
        simp [length_plainTag]
      rw [hdrop, htag hk, htag hk', if_neg hne.symm]

theorem length_encrypt (k n p : Bytes) : (T.encrypt k n p).length = p.length + 16 := by
  unfold encrypt
  split
  · rename_i e he
    obtain ⟨rfl, rfl, rfl⟩ : e.key = k ∧ e.nonce = n ∧ e.plaintext = p := by simpa using List.find?_some he
    exact e.length
  · simp [length_plainTag]

end CipherTable

/-- The primitives with the answers of three tables. -/
def knownCrypto (digests : DigestTable Bytes) (macs : DigestTable (Bytes × Bytes)) (ciphers : CipherTable) :
    Crypto where
  sha256 := digests.digest id
  hmac k m := macs.digest (fun p => framed p.1 p.2) (k, m)
  takesAad := true
  aesEncrypt := ciphers.encrypt
  aesDecrypt := ciphers.decrypt
  sha256_lowerHex := digests.lowerHex_digest id
  hmac_lowerHex k m := macs.lowerHex_digest _ (k, m)
  aesDecrypt_aesEncrypt := ciphers.decrypt_encrypt
  length_aesEncrypt := ciphers.length_encrypt

theorem filter_aesDecrypt (C : Crypto) (k n p : Bytes) :
    (C.aesDecrypt k n (C.aesEncrypt k n p)).filter (fun q => C.aesEncrypt k n q = C.aesEncrypt k n p) = some p := by
  rw [C.aesDecrypt_aesEncrypt]
  exact Option.filter_some_pos (decide_eq_true rfl)

/-- The primitives, with a decryption that encrypts again and compares. -/
def Crypto.exact (C : Crypto) : Crypto :=
  { C with
    aesDecrypt := fun k n c => (C.aesDecrypt k n c).filter fun p => C.aesEncrypt k n p = c
    aesDecrypt_aesEncrypt := filter_aesDecrypt C }

theorem Crypto.exact_exact (C : Crypto) : C.exact.Exact := by
  intro k n c p h
  exact (of_decide_eq_true (Option.filter_eq_some_iff.mp h).2).symm

section

variable (digests : DigestTable Bytes) (macs : DigestTable (Bytes × Bytes)) (ciphers : CipherTable)

theorem knownCrypto_shaInjective : (knownCrypto digests macs ciphers).ShaInjective :=
  digests.digest_injective id Function.injective_id

theorem knownCrypto_hmacBinding : (knownCrypto digests macs ciphers).HmacBinding := by
  intro k k' m m' h
  exact congrArg Prod.snd (macs.digest_injective _ framed_injective h)

theorem knownCrypto_hmacKeyed : (knownCrypto digests macs ciphers).HmacKeyed := by
  intro k k' m _ _ h
  exact congrArg Prod.fst (macs.digest_injective _ framed_injective h)

end

end PyLib
