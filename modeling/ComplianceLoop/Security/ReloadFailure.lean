import ComplianceLoop.Security.PanHandler
import ComplianceLoop.Security.SecretsLoader

/-!
# Loads of the secrets that raise

`load_secrets` puts the secrets of Vault into the environment before it checks them, and `reload_secrets` forgets the
caches before it loads. A call that raises leaves everything in use as it was exactly when it has put nothing into the
environment, and, for a reload, the caches held what the environment gives anyway (`leavesInUse_iff`).
-/

set_option autoImplicit false

namespace ComplianceLoop

open PyLib

/-- `load_secrets` and `reload_secrets`. -/
inductive SecretsCall where
  | load
  | reload
  deriving DecidableEq

namespace Process

/-- What the call returns or raises, and the process afterwards. -/
def callSecrets (vault : Vault) (p : Process) : SecretsCall → Except PyExc Unit × Process
  | .load => p.loadSecrets vault
  | .reload => p.reloadSecrets vault

/-- The environment, what `get_secret` returns, and the keys of signing, verification and PAN hashing are the same. -/
structure LeavesInUse (p q : Process) : Prop where
  environ : q.environ = p.environ
  secrets : ∀ name default, q.getSecret name default = p.getSecret name default
  server : q.keys.server = p.keys.server
  previous : q.keys.previous = p.keys.previous
  pan : q.getPanHmacKey.1 = p.getPanHmacKey.1

/-- With Vault, the first of its secrets that the environment does not have, if there is one, is none that a variable
can be set to. -/
def InjectsNothing (vault : Vault) (p : Process) : Prop :=
  p.useVault = true → ∀ secrets, loadFromVault vault p.environ = .ok secrets →
    ∀ s, secrets.items.find? (fun s => (p.environ.get? s.1).isNone) = some s →
      returned (setenv p.environ s.1 s.2) = false

/-- Every cached secret, and every cached key of the HMACs, is what the environment gives. -/
structure CachesCurrent (p : Process) : Prop where
  secrets : ∀ name value, p.secretCache.get? name = some value → value ≠ [] ∧ p.environ.get? name = some value
  server : ∀ key, p.serverHmacKey = some key → loadHmacKey p.environ serverHmacKeyVar = .ok key
  previous : ∀ key, p.serverHmacKeyPrevious = some key → loadPreviousHmacKey p.environ = some key
  pan : ∀ key, p.panHmacKey = some key → loadPanHmacKey p.environ = .ok key

end Process

/-! ## The environment -/

/-- No variable is removed. -/
theorem get?_injectSecrets_of_some {ps : List (Text × Text)} : ∀ {e : TextDict} {k v : Text},
    e.get? k = some v → (injectSecrets ps e).2.get? k = some v := by
  induction ps with
  | nil => exact fun h => h
  | cons p ps ih =>
    intro e k v h
    obtain ⟨key, value⟩ := p
    rw [injectSecrets]
    split
    · exact ih h
    · rename_i hnew
      split
      · exact h
      · rename_i e1 he
        refine ih ?_
        rw [setenv_eq_ok he, TextDict.get?_set_of_ne _ ?_ _, h]
        rintro rfl
        exact hnew (by rw [h]; rfl)

/-- The environment is as before when the first new secret cannot be set. -/
theorem injectSecrets_snd_eq_iff {ps : List (Text × Text)} {e : TextDict} :
    (injectSecrets ps e).2 = e ↔
      ∀ s, ps.find? (fun s => (e.get? s.1).isNone) = some s → returned (setenv e s.1 s.2) = false := by
  induction ps with
  | nil => simp [injectSecrets]
  | cons p ps ih =>
    obtain ⟨key, value⟩ := p
    rw [injectSecrets]
    cases hg : e.get? key with
    | some v =>
      rw [List.find?_cons_of_neg (by simp [hg])]
      exact ih
    | none =>
      rw [List.find?_cons_of_pos (by simp [hg])]
      simp only [Option.isSome_none, Bool.false_eq_true, if_false, Option.some.injEq, forall_eq']
      cases hs : setenv e key value with
      | error exc => simp [returned]
      | ok e1 =>
        refine iff_of_false (fun he => ?_) (by simp [returned])
        -- the variable has been set
        have hset : e1.get? key = some value := by rw [setenv_eq_ok hs, TextDict.get?_set_self]
        have hkept : (injectSecrets ps e1).2.get? key = some value := get?_injectSecrets_of_some hset
        simp only at he
        rw [he, hg] at hkept
        cases hkept

/-! ## The two calls -/

namespace Process

variable {vault : Vault} {p q : Process}

theorem cacheSecrets_eq_error {secrets : TextDict} {e : PyExc} (h : p.cacheSecrets secrets = (.error e, q)) :
    q = p := by
  unfold cacheSecrets at h
  split at h
  · exact (Prod.mk.inj h).2.symm
  · cases (Prod.mk.inj h).1

/-- A load that raises has changed nothing but the environment, and that only by new secrets of Vault. -/
theorem loadSecrets_eq_error {e : PyExc} (h : p.loadSecrets vault = (.error e, q)) :
    q = { p with environ := q.environ } ∧ (q.environ = p.environ ↔ p.InjectsNothing vault) := by
  unfold loadSecrets at h
  split at h
  · cases (Prod.mk.inj h).1
  · split at h
    · rename_i hu
      split at h
      · rename_i exc hv
        obtain rfl := (Prod.mk.inj h).2
        refine ⟨rfl, iff_of_true rfl fun _ secrets hs => ?_⟩
        rw [hv] at hs
        cases hs
      · rename_i secrets hv
        have hq : q = { p with environ := (injectSecrets secrets.items p.environ).2 } := by
          split at h
          · rename_i exc environ hi
            rw [hi]
            exact (Prod.mk.inj h).2.symm
          · rename_i environ hi
            rw [hi]
            exact cacheSecrets_eq_error h
        rw [hq]
        refine ⟨rfl, injectSecrets_snd_eq_iff.trans ⟨fun hn _ secrets' hs => ?_, fun hn => hn hu secrets hv⟩⟩
        rw [hv] at hs
        exact Except.ok.inj hs ▸ hn
    · rename_i hu
      obtain rfl := cacheSecrets_eq_error h
      exact ⟨rfl, iff_of_true rfl fun hu' => absurd hu' hu⟩

/-! What a process uses after it has forgotten its caches. -/

theorem server_forgetSecrets : p.forgetSecrets.keys.server = loadHmacKey p.environ serverHmacKeyVar := fetch_none _

theorem previous_forgetSecrets : p.forgetSecrets.keys.previous = loadPreviousHmacKey p.environ := Option.none_or

theorem pan_forgetSecrets : p.forgetSecrets.getPanHmacKey.1 = loadPanHmacKey p.environ := fetch_none _

/-- A cached secret that is read again from the environment is there, and is not empty. -/
theorem get?_of_getSecret_forgetSecrets {name value : Text}
    (h : p.forgetSecrets.getSecret name none = .ok value) : value ≠ [] ∧ p.environ.get? name = some value := by
  have hforgot : p.forgetSecrets.secretCache.get? name = none := rfl
  have henv : p.forgetSecrets.environ = p.environ := rfl
  rw [getSecret, hforgot, henv] at h
  simp only at h
  split at h
  · rename_i hne
    have hvalue : p.environ.get name [] = value := Except.ok.inj h
    rw [← hvalue]
    have hne' : p.environ.get name [] ≠ [] := by simpa using hne
    refine ⟨hne', ?_⟩
    cases hg : p.environ.get? name with
    | none => exact absurd (by simp [TextDict.get, hg]) hne'
    | some t => simp [TextDict.get, hg]
  · exact absurd h (raise_ne_ok _ _ _)

theorem cachesCurrent_of_leavesInUse (h : p.LeavesInUse p.forgetSecrets) : p.CachesCurrent := by
  refine ⟨fun name value hv => ?_, fun key hk => ?_, fun key hk => ?_, fun key hk => ?_⟩
  · have hcached : p.getSecret name none = .ok value := by rw [getSecret, hv]
    exact get?_of_getSecret_forgetSecrets ((h.secrets name none).trans hcached)
  · have hcell : p.keys.server = .ok key := by
      show (fetch _ p.serverHmacKey).1 = _
      rw [hk, fetch_some]
    rw [← server_forgetSecrets, h.server, hcell]
  · have hcell : p.keys.previous = some key := by
      show p.serverHmacKeyPrevious.or _ = _
      rw [hk, Option.some_or]
    rw [← previous_forgetSecrets, h.previous, hcell]
  · have hcell : p.getPanHmacKey.1 = .ok key := by
      show (fetch _ p.panHmacKey).1 = _
      rw [hk, fetch_some]
    rw [← pan_forgetSecrets, h.pan, hcell]

theorem leavesInUse_of_cachesCurrent (h : p.CachesCurrent) : p.LeavesInUse p.forgetSecrets := by
  refine ⟨rfl, fun name default => ?_, server_forgetSecrets.trans ?_, previous_forgetSecrets.trans ?_,
    pan_forgetSecrets.trans ?_⟩
  · have hforgot : p.forgetSecrets.secretCache.get? name = none := rfl
    have henv : p.forgetSecrets.environ = p.environ := rfl
    unfold getSecret
    rw [hforgot, henv]
    cases hg : p.secretCache.get? name with
    | none => rfl
    | some value =>
      obtain ⟨hne, he⟩ := h.secrets name value hg
      simp [TextDict.get, he, hne]
  · show _ = (fetch _ p.serverHmacKey).1
    cases hk : p.serverHmacKey with
    | none => rw [fetch_none]
    | some key => rw [fetch_some, h.server key hk]
  · show _ = p.serverHmacKeyPrevious.or _
    cases hk : p.serverHmacKeyPrevious with
    | none => rw [Option.none_or]
    | some key => rw [Option.some_or, h.previous key hk]
  · show _ = (fetch _ p.panHmacKey).1
    cases hk : p.panHmacKey with
    | none => rw [fetch_none]
    | some key => rw [fetch_some, h.pan key hk]

/-- Forgetting the caches makes no difference when they are current. -/
theorem leavesInUse_forgetSecrets : p.LeavesInUse p.forgetSecrets ↔ p.CachesCurrent :=
  ⟨cachesCurrent_of_leavesInUse, leavesInUse_of_cachesCurrent⟩

/-- **A call that raises leaves everything in use as it was if and only if it puts nothing into the environment, and,
for a reload, the caches were current.** -/
theorem leavesInUse_iff {c : SecretsCall} {e : PyExc} (h : p.callSecrets vault c = (.error e, q)) :
    p.LeavesInUse q ↔ p.InjectsNothing vault ∧ (c = .reload → p.CachesCurrent) := by
  cases c with
  | load =>
    obtain ⟨hq, hiff⟩ := loadSecrets_eq_error h
    constructor
    · exact fun hl => ⟨hiff.mp hl.environ, fun hc => (by cases hc)⟩
    · intro hn
      have henv := hiff.mpr hn.1
      rw [henv] at hq
      rw [hq]
      exact ⟨rfl, fun _ _ => rfl, rfl, rfl, rfl⟩
  | reload =>
    have hload : p.forgetSecrets.loadSecrets vault = (.error e, q) := h
    obtain ⟨hq, hiff⟩ := loadSecrets_eq_error hload
    have hsame : p.forgetSecrets.InjectsNothing vault ↔ p.InjectsNothing vault := Iff.rfl
    constructor
    · intro hl
      have henv : q.environ = p.forgetSecrets.environ := hl.environ
      rw [henv] at hq
      rw [hq] at hl
      exact ⟨hsame.mp (hiff.mp henv), fun _ => leavesInUse_forgetSecrets.mp hl⟩
    · intro hn
      have henv := hiff.mpr (hsame.mpr hn.1)
      rw [henv] at hq
      rw [hq]
      exact leavesInUse_forgetSecrets.mpr (hn.2 rfl)

end Process

namespace KeySample

/-- A Vault that holds the audit key only. -/
def partialVault : Vault :=
  ⟨fun _ _ => true, fun _ _ _ _ => .ok (TextDict.empty.set serverHmacKeyVar (keyText 1))⟩

/-- The environment of a process that takes its secrets from Vault. -/
def vaultVars : TextDict := (TextDict.empty.set "USE_VAULT".toList "true".toList).set "VAULT_TOKEN".toList ['t']

end KeySample

namespace Process

/-- A first load that fails for the missing secrets. -/
theorem leavesInUse_iff_partial :
    ∃ e q, (Process.start KeySample.vaultVars).callSecrets KeySample.partialVault .load = (.error e, q) ∧
      ((Process.start KeySample.vaultVars).LeavesInUse q ↔
        (Process.start KeySample.vaultVars).InjectsNothing KeySample.partialVault ∧
          (SecretsCall.load = .reload → (Process.start KeySample.vaultVars).CachesCurrent)) := by
  have hraises : returned ((Process.start KeySample.vaultVars).callSecrets KeySample.partialVault .load).1 = false := by
    decide
  cases hc : (Process.start KeySample.vaultVars).callSecrets KeySample.partialVault .load with
  | mk result q =>
    rw [hc] at hraises
    cases result with
    | ok u => cases hraises
    | error e => exact ⟨e, q, rfl, leavesInUse_iff hc⟩

/-- The audit key of Vault stays in the environment. -/
theorem not_leavesInUse : ¬∀ (vault : Vault) (p q : Process) (c : SecretsCall) (e : PyExc),
    p.callSecrets vault c = (.error e, q) → p.LeavesInUse q := by
  intro h
  have hcall : (((Process.start KeySample.vaultVars).callSecrets KeySample.partialVault .load).2.environ.get?
      serverHmacKeyVar).isSome = true ∧
      returned ((Process.start KeySample.vaultVars).callSecrets KeySample.partialVault .load).1 = false := by
    decide
  cases hc : (Process.start KeySample.vaultVars).callSecrets KeySample.partialVault .load with
  | mk result q =>
    rw [hc] at hcall
    cases result with
    | ok u => cases hcall.2
    | error e =>
      have hsame := (h _ _ _ _ _ hc).environ
      have hset := hcall.1
      simp only [hsame] at hset
      revert hset
      decide

end Process

end ComplianceLoop
