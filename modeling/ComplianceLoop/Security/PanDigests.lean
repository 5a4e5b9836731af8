import ComplianceLoop.Security.PanMatching
import ComplianceLoop.Security.ReloadFailure
import ComplianceLoop.Security.VaultKeys

/-!
# Which digests of a PAN agree

Two digests, of two processes and at different times, are equal exactly when they are of the same PAN and the processes
use the same PAN key (`digest_eq_iff`). A key that a process uses has been loaded from its environment, whatever it has
been asked for since it started (`PanKeyLoaded`).
-/

set_option autoImplicit false

namespace ComplianceLoop

open PyLib

section

variable {C : Crypto} {p q : Process} {s t : Text}

/-- Two processes hash two texts alike: they spell the same PAN, and the key is the same. -/
structure HashAlike (p q : Process) (s t : Text) : Prop where
  pan : upper (strip s) = upper (strip t)
  key : p.getPanHmacKey.1 = q.getPanHmacKey.1

/-- The key that is cached has been loaded. -/
def PanKeyLoaded (p : Process) : Prop := ∀ key, p.panHmacKey = some key → key.length = 32

theorem length_of_loadPanHmacKey {environ : TextDict} {key : Bytes} (h : loadPanHmacKey environ = .ok key) :
    key.length = 32 := by
  obtain ⟨_, -, hkey, -⟩ := loadPanHmacKey_eq_ok.mp h
  exact hkey.2

theorem PanKeyLoaded.length (h : PanKeyLoaded p) {key : Bytes} (hk : p.getPanHmacKey.1 = .ok key) :
    key.length = 32 := by
  unfold Process.getPanHmacKey at hk
  cases hc : p.panHmacKey with
  | some k =>
    rw [hc] at hk
    obtain rfl := Except.ok.inj hk
    exact h k hc
  | none =>
    rw [hc] at hk
    exact length_of_loadPanHmacKey ((fetch_none _).symm.trans hk)

/-- **Two digests are equal exactly when the PANs and the keys are.** -/
theorem digest_eq_iff (hb : C.HmacBinding) (hk : C.HmacKeyed) (hp : PanKeyLoaded p) (hq : PanKeyLoaded q) {d e : Text}
    (hd : (p.hmacPan C s).1 = .ok d) (he : (q.hmacPan C t).1 = .ok e) : d = e ↔ HashAlike p q s t := by
  obtain ⟨-, k, hpk, rfl⟩ := hmacPan_eq_ok hd
  obtain ⟨-, k', hqk, rfl⟩ := hmacPan_eq_ok he
  constructor
  · intro h
    have hpan : upper (strip s) = upper (strip t) := utf8_inj.mp (hb h)
    rw [hpan] at h
    obtain rfl : k = k' := hk (hp.length hpk) (hq.length hqk) h
    exact ⟨hpan, hpk.trans hqk.symm⟩
  · rintro ⟨hpan, hkey⟩
    obtain rfl : k = k' := Except.ok.inj (hpk.symm.trans (hkey.trans hqk))
    rw [hpan]

variable (C) in
/-- `verify_pan_hmac`. -/
def Process.verifyPanHmac (p : Process) (pan storedHmac : Text) : Except PyExc Bool × Process :=
  match p.hmacPan C pan with
  | (.error e, p) => (.error e, p)
  | (.ok computed, p) => (compareDigest (lower computed) (lower storedHmac), p)

/-- A stored digest verifies exactly when it is the digest of the PAN. -/
theorem verifyPanHmac_of_hmacPan {d e : Text} (hd : (p.hmacPan C s).1 = .ok d) (he : (q.hmacPan C t).1 = .ok e) :
    (q.verifyPanHmac C t d).1 = .ok (e == d) := by
  obtain ⟨-, k, -, rfl⟩ := hmacPan_eq_ok hd
  unfold Process.verifyPanHmac
  cases h : q.hmacPan C t with
  | mk r q' =>
    rw [h] at he
    obtain rfl : r = .ok e := he
    obtain ⟨-, k', -, rfl⟩ := hmacPan_eq_ok (congrArg Prod.fst h)
    show compareDigest (lower (C.hmac k' _)) (lower (C.hmac k _)) = _
    rw [Crypto.lower_hmac, Crypto.lower_hmac]
    exact compareDigest_of_ascii (Crypto.isAscii_hmac _ _) (Crypto.isAscii_hmac _ _)

theorem panKeyLoaded_start (environ : TextDict) : PanKeyLoaded (Process.start environ) := fun _ h => (nomatch h)

theorem PanKeyLoaded.hmacPan (h : PanKeyLoaded p) (pan : Text) : PanKeyLoaded (p.hmacPan C pan).2 := by
  have hget : PanKeyLoaded p.getPanHmacKey.2 := by
    intro key hkey
    have hgives : p.getPanHmacKey.1 = .ok key := by
      unfold Process.getPanHmacKey at hkey ⊢
      cases hc : p.panHmacKey with
      | some k =>
        rw [hc] at hkey
        exact congrArg Except.ok (Option.some.inj hkey)
      | none =>
        rw [hc] at hkey
        cases hl : loadPanHmacKey p.environ with
        | error e =>
          rw [hl] at hkey
          cases hkey
        | ok k =>
          rw [hl] at hkey
          exact congrArg Except.ok (Option.some.inj hkey)
    exact h.length hgives
  unfold Process.hmacPan
  by_cases hv : validatePanFormat (strip (upper pan)) = true
  · rw [if_pos hv]
    cases hk : p.getPanHmacKey with
    | mk r q =>
      rw [hk] at hget
      cases r <;> exact hget
  · rw [if_neg hv]
    exact h

theorem PanKeyLoaded.invalidate (p : Process) : PanKeyLoaded p.invalidatePanKeyCache := fun _ h => (nomatch h)

theorem PanKeyLoaded.loadSecrets (h : PanKeyLoaded p) (vault : Vault) : PanKeyLoaded (p.loadSecrets vault).2 := by
  have hcache : ∀ {p : Process} (secrets : TextDict), PanKeyLoaded p → PanKeyLoaded (p.cacheSecrets secrets).2 := by
    intro p secrets h
    unfold Process.cacheSecrets
    split
    · exact h
    · exact fun _ hk => (nomatch hk)
  unfold Process.loadSecrets
  split
  · exact h
  · split
    · split
      · exact h
      · split
        · exact h
        · exact hcache _ h
    · exact hcache _ h

theorem PanKeyLoaded.callSecrets (h : PanKeyLoaded p) (vault : Vault) (c : SecretsCall) :
    PanKeyLoaded (p.callSecrets vault c).2 := by
  cases c with
  | load => exact h.loadSecrets vault
  | reload => exact PanKeyLoaded.loadSecrets (p := p.forgetSecrets) (fun _ hk => (nomatch hk)) vault

end

end ComplianceLoop
