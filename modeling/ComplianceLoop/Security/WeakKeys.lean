import ComplianceLoop.Security.SecretsLoader

/-!
# Verification under weak keys

`_load_hmac_key` checks that the current key has 32 bytes; `_get_previous_hmac_key` takes whatever its text decodes to,
down to the empty key of a blank. A record verifies under keys of 32 bytes only exactly when the environment has no
previous key of another length that tells messages differently from the current one (`strongOnly_iff`).
-/

set_option autoImplicit false

namespace ComplianceLoop

open PyLib

/-- The stored HMAC is the one of the message under a key of the environment that has exactly 32 bytes. -/
def SignedByKey (C : Crypto) (environ : TextDict) (stored agentOutputsHash : Text)
    (decisionId guidelineVersionId : PyStr) (writtenAt : Text) : Prop :=
  ∃ name ∈ [serverHmacKeyVar, serverHmacKeyPreviousVar], ∃ t key m, environ.get? name = some t ∧ IsKey t key ∧
    buildHmacMessage agentOutputsHash decisionId guidelineVersionId writtenAt = .ok m ∧ lower stored = C.hmac key m

/-- The previous key, if there is one beside a current key, has 32 bytes, or gives every message the HMAC that the
current key gives it. -/
def NoWeakKey (C : Crypto) (environ : TextDict) : Prop :=
  ∀ current previous, loadHmacKey environ serverHmacKeyVar = .ok current →
    loadPreviousHmacKey environ = some previous → previous.length = 32 ∨
      ∀ h d g w m, buildHmacMessage h d g w = .ok m → C.hmac previous m = C.hmac current m

/-- When there is a previous key. -/
theorem loadPreviousHmacKey_eq_some {environ : TextDict} {key : Bytes} (h : loadPreviousHmacKey environ = some key) :
    ∃ t, environ.get? serverHmacKeyPreviousVar = some t ∧ bytesFromHex t = .ok key := by
  unfold loadPreviousHmacKey at h
  dsimp only at h
  cases hg : environ.get? serverHmacKeyPreviousVar with
  | none => simp [TextDict.get, hg] at h
  | some t =>
    simp only [TextDict.get, hg, Option.getD_some] at h
    split at h
    · cases h
    · cases ht : bytesFromHex t with
      | error e =>
        rw [ht] at h
        cases h
      | ok key' =>
        rw [ht] at h
        exact ⟨t, rfl, ht.trans (congrArg Except.ok (Option.some.inj h))⟩

/-- **Verification accepts the keys of 32 bytes only if and only if the environment has no weak previous key.** -/
theorem strongOnly_iff (C : Crypto) {p : Process} (hp : p.keys = (Process.start p.environ).keys) :
    (∀ stored h d g w, (p.verifyRecordHmac C stored h d g w).1 = .ok true → SignedByKey C p.environ stored h d g w) ↔
      NoWeakKey C p.environ := by
  have hserver : p.keys.server = loadHmacKey p.environ serverHmacKeyVar := by
    rw [hp]
    exact fetch_none _
  have hprevious : p.keys.previous = loadPreviousHmacKey p.environ := by
    rw [hp]
    exact Option.none_or
  constructor
  · intro hstrong current previous hc hprev
    by_contra hweak
    rw [not_or] at hweak
    refine hweak.2 fun h d g w m hm => ?_
    have hverifies : (p.verifyRecordHmac C (C.hmac previous m) h d g w).1 = .ok true := by
      rw [Process.verifyRecordHmac_fst, verifyRecordHmac_eq_true_iff hm]
      exact ⟨current, hserver.trans hc, .inr ⟨previous, hprevious.trans hprev, Crypto.lower_hmac _ _⟩⟩
    obtain ⟨name, hname, t, key, m', ht, hkey, hm', hmac⟩ := hstrong _ h d g w hverifies
    obtain rfl : m = m' := Except.ok.inj (hm.symm.trans hm')
    rw [Crypto.lower_hmac] at hmac
    rcases List.mem_cons.mp hname with rfl | hname
    · have hcurrent : key = current :=
        Except.ok.inj ((loadHmacKey_eq_ok.mpr ⟨t, ht, hkey⟩).symm.trans hc)
      rw [hmac, hcurrent]
    · rw [List.mem_singleton.mp hname] at ht
      have hsame : key = previous := Option.some.inj ((loadPreviousHmacKey_of_isKey ht hkey).symm.trans hprev)
      exact absurd (hsame ▸ hkey.2) hweak.1
  · intro hweak stored h d g w hverifies
    rw [Process.verifyRecordHmac_fst] at hverifies
    cases hm : buildHmacMessage h d g w with
    | error e =>
      rw [verifyRecordHmac, hm] at hverifies
      cases hverifies
    | ok m =>
      obtain ⟨current, hc, hmatch⟩ := (verifyRecordHmac_eq_true_iff hm).mp hverifies
      obtain ⟨t, ht, hkey⟩ := loadHmacKey_eq_ok.mp (hserver.symm.trans hc)
      obtain hcur | ⟨previous, hprev, hstored⟩ := hmatch
      · exact ⟨_, List.mem_cons_self, t, current, m, ht, hkey, hm, hcur⟩
      · rw [hprevious] at hprev
        obtain hlen | hsame := hweak current previous (loadHmacKey_eq_ok.mpr ⟨t, ht, hkey⟩) hprev
        · obtain ⟨u, hu, hdecode⟩ := loadPreviousHmacKey_eq_some hprev
          exact ⟨_, List.mem_cons_of_mem _ List.mem_cons_self, u, previous, m, hu, ⟨hdecode, hlen⟩, hm, hstored⟩
        · exact ⟨_, List.mem_cons_self, t, current, m, ht, hkey, hm, hstored.trans (hsame h d g w m hm)⟩

namespace KeySample

/-- The MACs of the message under the audit key and under the empty key. -/
def emptyKeyMacs : DigestTable (Bytes × Bytes) where
  entries :=
    [((key 1, message), digestText 0x9a3e7b0f944075eeb8b5d716a75492b0f87a194cc4a680e302b08b7440fcb5ad),
      (([], message), digestText 0xf788537b552ae43913248cde66c447759bacfdd1b63bf449ed9f988b615f3a37)]
  form := by decide
  distinct := by decide

theorem noDigests_form : ∀ e ∈ ([] : List (Bytes × Text)), LowerHex e.2 ∧ e.2.length = 64 := List.forall_mem_nil _

def emptyKeyCrypto : Crypto := knownCrypto ⟨[], noDigests_form, List.nodup_nil⟩ emptyKeyMacs ciphers

/-- The previous key is a blank. -/
def blankPrevious : TextDict := environ.set serverHmacKeyPreviousVar [' ']

end KeySample

/-- A process with a blank previous key. -/
theorem strongOnly_iff_blank :
    (∀ stored h d g w,
        ((Process.start KeySample.blankPrevious).verifyRecordHmac KeySample.emptyKeyCrypto stored h d g w).1 =
            .ok true →
          SignedByKey KeySample.emptyKeyCrypto KeySample.blankPrevious stored h d g w) ↔
      NoWeakKey KeySample.emptyKeyCrypto KeySample.blankPrevious :=
  strongOnly_iff KeySample.emptyKeyCrypto (p := Process.start KeySample.blankPrevious) rfl

/-- A record that is signed with the empty key verifies. -/
theorem emptyKey_verifies : ¬∀ (C : Crypto) (environ : TextDict) (stored h : Text) (d g : PyStr) (w : Text),
    ((Process.start environ).verifyRecordHmac C stored h d g w).1 = .ok true →
      SignedByKey C environ stored h d g w := by
  intro hall
  have hverifies : ((Process.start KeySample.blankPrevious).verifyRecordHmac KeySample.emptyKeyCrypto
      (KeySample.emptyKeyCrypto.hmac [] KeySample.message) (List.replicate 64 'a') (pyStr ['d']) (pyStr ['g'])
      ['w']).1 = .ok true := by decide
  have hmessage : buildHmacMessage (List.replicate 64 'a') (pyStr ['d']) (pyStr ['g']) ['w'] =
      .ok KeySample.message := by decide
  have hkey : IsKey (KeySample.keyText 1) (KeySample.key 1) := ⟨by decide, by decide⟩
  have hdiffer : lower (KeySample.emptyKeyCrypto.hmac [] KeySample.message) ≠
      KeySample.emptyKeyCrypto.hmac (KeySample.key 1) KeySample.message := by decide
  have hserver : KeySample.blankPrevious.get? serverHmacKeyVar = some (KeySample.keyText 1) := by decide
  have hprevious : KeySample.blankPrevious.get? serverHmacKeyPreviousVar = some [' '] := by decide
  have hblank : bytesFromHex [' '] = .ok [] := by decide
  obtain ⟨name, hname, t, key, m, ht, hk, hm, hmac⟩ := hall _ _ _ _ _ _ _ hverifies
  rw [hmessage, Except.ok.injEq] at hm
  rcases List.mem_cons.mp hname with rfl | hname
  · rw [hserver, Option.some.injEq] at ht
    rw [← ht] at hk
    rw [← hm, hk.unique hkey] at hmac
    exact hdiffer hmac
  · rw [List.mem_singleton.mp hname, hprevious, Option.some.injEq] at ht
    rw [← ht] at hk
    have hempty : [] = key := Except.ok.inj (hblank.symm.trans hk.1)
    have hlength := hk.2
    rw [← hempty] at hlength
    cases hlength

end ComplianceLoop
