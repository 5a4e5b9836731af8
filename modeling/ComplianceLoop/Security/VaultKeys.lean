import ComplianceLoop.Security.PanHandler
import ComplianceLoop.Security.SecretsLoader
import ComplianceLoop.Transition.Runs

/-!
# The keys in use with Vault

Loads and reloads from Vault, whose data may change between them, with signing, verification and PAN hashing in between.
Vault values take effect through the environment, and there a variable that is already set keeps its value. So the keys
in use are Vault's in every state of a run exactly when at every load the variables that are set agree with Vault
(`keysAreVaults_always_iff`).
-/

set_option autoImplicit false

namespace ComplianceLoop

open PyLib Transition

/-- A process, and the data that Vault held at the last load. -/
structure VaultState where
  process : Process
  held : Option TextDict
  deriving DecidableEq

/-- What the process is asked for; the loads come with the Vault of that time. -/
inductive VaultStep where
  | load (vault : Vault)
  | reload (vault : Vault)
  | write (agentOutputsHash : Text) (decisionId guidelineVersionId : PyStr) (writtenAt : Text)
  | verify (storedHmac agentOutputsHash : Text) (decisionId guidelineVersionId : PyStr) (writtenAt : Text)
  | hmacPan (pan : Text)

namespace VaultState

/-- Before the first call. -/
def start (environ : TextDict) : VaultState := ⟨Process.start environ, none⟩

variable (C : Crypto) (s : VaultState)

/-- One call. A load or a reload must succeed; a load after the first one does nothing. -/
def step : VaultStep → Option VaultState
  | .load vault =>
    match s.process.loadSecrets vault with
    | (.ok (), q) =>
      some ⟨q, if s.process.loaded then s.held else (loadFromVault vault s.process.environ).toOption⟩
    | (.error _, _) => none
  | .reload vault =>
    match s.process.reloadSecrets vault with
    | (.ok (), q) => some ⟨q, (loadFromVault vault s.process.environ).toOption⟩
    | (.error _, _) => none
  | .write h d g w => some { s with process := (s.process.computeRecordHmac C h d g w).2 }
  | .verify stored h d g w => some { s with process := (s.process.verifyRecordHmac C stored h d g w).2 }
  | .hmacPan pan => some { s with process := (s.process.hmacPan C pan).2 }

end VaultState

/-- The system of these calls. -/
def vaultSystem (C : Crypto) : System VaultState VaultStep := ⟨VaultState.step C⟩

/-! ## The property and the condition -/

/-- The keys of a process are those of the given data, and `get_secret` returns that data. -/
structure KeysOf (held : TextDict) (v : Process.View) (secret : Text → Except PyExc Text) : Prop where
  server : ∃ t key, held.get? serverHmacKeyVar = some t ∧ IsKey t key ∧ v.keys.server = .ok key
  pan : ∃ t key, held.get? panHmacKeyVar = some t ∧ IsKey t key ∧ v.pan = .ok key
  previous : v.keys.previous = loadPreviousHmacKey held
  secrets : ∀ name t, held.get? name = some t → secret name = .ok t

/-- The keys in use are the ones that Vault held at the last load. -/
def KeysAreVaults (s : VaultState) : Prop :=
  ∀ held, s.held = some held → KeysOf held s.process.view fun name => s.process.getSecret name none

/-- The two key variables, where they are set, are the keys of Vault and not one text; the previous key, where it is
set, is Vault's. -/
structure Agrees (environ held : TextDict) : Prop where
  keys : ∀ name ∈ [serverHmacKeyVar, panHmacKeyVar], ∀ t, environ.get? name = some t →
    ∀ u key, held.get? name = some u → IsKey u key → IsKey t key
  separate : (environ.get? panHmacKeyVar).or (held.get? panHmacKeyVar) ≠
    (environ.get? serverHmacKeyVar).or (held.get? serverHmacKeyVar)
  previous : environ.get? serverHmacKeyPreviousVar ≠ none → loadPreviousHmacKey environ = loadPreviousHmacKey held

/-- The environment agrees with Vault at a load that takes place. -/
def AgreesAtLoad (s : VaultState) : VaultStep → Prop
  | .load vault => s.process.loaded = true ∨ ∀ held, loadFromVault vault s.process.environ = .ok held →
    Agrees s.process.environ held
  | .reload vault => ∀ held, loadFromVault vault s.process.environ = .ok held → Agrees s.process.environ held
  | _ => True

/-! ## One load -/

/-- When the PAN key is loaded. -/
theorem loadPanHmacKey_eq_ok {environ : TextDict} {key : Bytes} : loadPanHmacKey environ = .ok key ↔
    ∃ t, environ.get? panHmacKeyVar = some t ∧ IsKey t key ∧ environ.get? serverHmacKeyVar ≠ some t := by
  rw [loadPanHmacKey, bind_eq_ok]
  constructor
  · rintro ⟨k, hk, h⟩
    obtain ⟨t, ht, hkey⟩ := loadHmacKey_eq_ok.mp hk
    have hne : t ≠ [] := hkey.ne_nil
    simp only [TextDict.get, ht, Option.getD_some] at h
    split at h
    · exact absurd h (raise_ne_ok _ _ _)
    · rename_i hs
      cases h
      refine ⟨t, ht, hkey, fun hg => hs ?_⟩
      simp [hg, hne]
  · rintro ⟨t, ht, hkey, hs⟩
    refine ⟨key, loadHmacKey_eq_ok.mpr ⟨t, ht, hkey⟩, ?_⟩
    simp only [TextDict.get, ht, Option.getD_some]
    rw [if_neg]
    cases hg : environ.get? serverHmacKeyVar with
    | none => simp
    | some u =>
      have hu : t ≠ u := fun he => hs (by rw [hg, he])
      simp [hu]

section

variable {environ environ' held : TextDict} {v : Process.View} {secret : Text → Except PyExc Text}
  (hget : ∀ name, environ'.get? name = (environ.get? name).or (held.get? name))
  (hserver : v.keys.server = loadHmacKey environ' serverHmacKeyVar) (hpan : v.pan = loadPanHmacKey environ')
  (hprevious : v.keys.previous = loadPreviousHmacKey environ')

include hget hserver hpan hprevious

/-- Keys that come from the environment and are Vault's: the environment agrees with Vault. -/
theorem agrees_of_keysOf (h : KeysOf held v secret) : Agrees environ held := by
  obtain ⟨⟨t, key, ht, hk, hs⟩, ⟨u, pan, hu, hp, hpv⟩, hprev, -⟩ := h
  rw [hserver] at hs
  rw [hpan] at hpv
  rw [hprevious] at hprev
  obtain ⟨t', ht', hk'⟩ := loadHmacKey_eq_ok.mp hs
  obtain ⟨u', hu', hp', hne⟩ := loadPanHmacKey_eq_ok.mp hpv
  refine ⟨?_, ?_, ?_⟩
  · intro name hn x hx y k hy hky
    rcases List.mem_cons.mp hn with rfl | hn
    · rw [hget, hx, Option.some_or, Option.some.injEq] at ht'
      have hyt : y = t := Option.some.inj (hy.symm.trans ht)
      rw [ht', hky.unique (hyt ▸ hk)]
      exact hk'
    · obtain rfl := List.mem_singleton.mp hn
      rw [hget, hx, Option.some_or, Option.some.injEq] at hu'
      have hyu : y = u := Option.some.inj (hy.symm.trans hu)
      rw [hu', hky.unique (hyu ▸ hp)]
      exact hp'
  · rw [← hget, ← hget, hu']
    exact hne.symm
  · intro hset
    rw [← hprev]
    apply loadPreviousHmacKey_congr
    rw [hget]
    cases hx : environ.get? serverHmacKeyPreviousVar with
    | none => exact absurd hx hset
    | some x => rfl

/-- Where the environment agrees with Vault, the keys that come from it are Vault's. -/
theorem keysOf_of_agrees (hv : validateSecrets held = .ok ()) (hsecret : ∀ name t, held.get? name = some t →
    secret name = .ok t) (h : Agrees environ held) : KeysOf held v secret := by
  obtain ⟨hkeys, -⟩ := validateSecrets_keys hv
  obtain ⟨ts, ks, hts, hks⟩ := hkeys serverHmacKeyVar (by simp)
  obtain ⟨tp, kp, htp, hkp⟩ := hkeys panHmacKeyVar (by simp)
  have hvalue : ∀ name ∈ [serverHmacKeyVar, panHmacKeyVar], ∀ u key, held.get? name = some u → IsKey u key →
      ∃ t, environ'.get? name = some t ∧ IsKey t key := by
    intro name hn u key hu hkey
    rw [hget]
    cases hx : environ.get? name with
    | none => exact ⟨u, by rw [Option.none_or, hu], hkey⟩
    | some t => exact ⟨t, rfl, h.keys name hn t hx u key hu hkey⟩
  obtain ⟨t, ht, hkt⟩ := hvalue serverHmacKeyVar (by simp) ts ks hts hks
  obtain ⟨u, hu, hku⟩ := hvalue panHmacKeyVar (by simp) tp kp htp hkp
  refine ⟨⟨ts, ks, hts, hks, ?_⟩, ⟨tp, kp, htp, hkp, ?_⟩, ?_, hsecret⟩
  · rw [hserver]
    exact loadHmacKey_eq_ok.mpr ⟨t, ht, hkt⟩
  · rw [hpan]
    refine loadPanHmacKey_eq_ok.mpr ⟨u, hu, hku, fun hs => h.separate ?_⟩
    rw [← hget, ← hget, hu, hs]
  · rw [hprevious]
    cases hx : environ.get? serverHmacKeyPreviousVar with
    | none =>
      apply loadPreviousHmacKey_congr
      rw [hget, hx, Option.none_or]
    | some x =>
      rw [← h.previous (by rw [hx]; simp)]
      apply loadPreviousHmacKey_congr
      rw [hget, hx, Option.some_or]

end

/-- **After a load the keys in use are Vault's exactly when the environment agreed with Vault.** -/
theorem keysOf_iff_agrees {environ environ' held : TextDict} (hv : validateSecrets held = .ok ())
    (hi : injectSecrets held.items environ = (.ok (), environ')) {q : Process} (hq : q.environ = environ')
    (hserver : q.serverHmacKey = none) (hprevious : q.serverHmacKeyPrevious = none) (hpan : q.panHmacKey = none)
    (hcache : ∀ name t, held.get? name = some t → q.secretCache.get? name = some t) :
    KeysOf held q.view (fun name => q.getSecret name none) ↔ Agrees environ held := by
  have hget : ∀ name, environ'.get? name = (environ.get? name).or (held.get? name) :=
    get?_injectSecrets held.nodup hi
  have hserver' : q.view.keys.server = loadHmacKey environ' serverHmacKeyVar := by
    show (fetch (loadHmacKey q.environ serverHmacKeyVar) q.serverHmacKey).1 = _
    rw [hserver, fetch_none, hq]
  have hpan' : q.view.pan = loadPanHmacKey environ' := by
    show (fetch (loadPanHmacKey q.environ) q.panHmacKey).1 = _
    rw [hpan, fetch_none, hq]
  have hprevious' : q.view.keys.previous = loadPreviousHmacKey environ' := by
    show q.serverHmacKeyPrevious.or (loadPreviousHmacKey q.environ) = _
    rw [hprevious, hq, Option.none_or]
  have hsecret : ∀ name t, held.get? name = some t → q.getSecret name none = .ok t := fun name t ht => by
    rw [Process.getSecret, hcache name t ht]
  exact ⟨agrees_of_keysOf hget hserver' hpan' hprevious', keysOf_of_agrees hget hserver' hpan' hprevious' hv hsecret⟩

/-! ## Whole runs -/

variable {C : Crypto}

theorem useVault_injectSecrets {p q : Process} {held : TextDict} (hu : p.useVault = true)
    (hi : injectSecrets held.items p.environ = (.ok (), q.environ)) : q.useVault = true := by
  cases hg : p.environ.get? "USE_VAULT".toList with
  | none =>
    rw [Process.useVault, TextDict.get, hg] at hu
    exact absurd hu (by decide)
  | some t =>
    rw [Process.useVault, TextDict.get, get?_injectSecrets held.nodup hi, hg, Option.some_or, ← hu, Process.useVault,
      TextDict.get, hg]

/-- The keys and the secrets are functions of what is seen of the process. -/
theorem KeysAreVaults.of_view {s : VaultState} (h : KeysAreVaults s) {q : Process} (hv : q.view = s.process.view) :
    KeysAreVaults { s with process := q } := by
  intro held hh
  have hk := h held hh
  have hc : q.secretCache = s.process.secretCache := congrArg Process.View.secretCache hv
  have he : q.environ = s.process.environ := congrArg Process.View.environ hv
  simp only [hv, Process.getSecret, hc, he] at hk ⊢
  exact hk

/-- A load that takes place keeps to Vault exactly when the environment agrees with it. -/
theorem keysAreVaults_load {p q : Process} {vault : Vault} (hl : p.loaded = false) (hu : p.useVault = true)
    (h : p.loadSecrets vault = (.ok (), q)) : q.useVault = true ∧
      (KeysAreVaults ⟨q, (loadFromVault vault p.environ).toOption⟩ ↔
        ∀ held, loadFromVault vault p.environ = .ok held → Agrees p.environ held) := by
  obtain ⟨held, environ, hs, hi, hv, rfl⟩ := Process.loadSecrets_vault hl hu h
  refine ⟨useVault_injectSecrets hu hi, ?_⟩
  have hiff := keysOf_iff_agrees hv hi (q := ⟨environ, p.secretCache.update held, true, none, none, none, p.aesKey⟩) rfl
    rfl rfl rfl fun name t ht => by
      show (p.secretCache.update held).get? name = some t
      rw [TextDict.get?_update, ht, Option.some_or]
  constructor
  · intro hP held' hh
    obtain rfl : held = held' := Except.ok.inj (hs.symm.trans hh)
    exact hiff.mp (hP held (by rw [hs]; rfl))
  · intro hA held' hh
    rw [hs] at hh
    obtain rfl : held = held' := Option.some.inj hh
    exact hiff.mpr (hA held hs)

/-- What one call does to the property. -/
theorem keysAreVaults_step {s t : VaultState} {l : VaultStep} (hu : s.process.useVault = true)
    (hP : KeysAreVaults s) (hs : (vaultSystem C).step s l = some t) :
    t.process.useVault = true ∧ (KeysAreVaults t ↔ AgreesAtLoad s l) := by
  have hcall : ∀ {q : Process}, q.view = s.process.view →
      q.useVault = true ∧ (KeysAreVaults { s with process := q } ↔ True) := fun {q} hv => by
    have he : q.environ = s.process.environ := congrArg Process.View.environ hv
    refine ⟨?_, iff_of_true (hP.of_view hv) trivial⟩
    rw [Process.useVault, he]
    exact hu
  cases l with
  | load vault =>
    simp only [vaultSystem, VaultState.step] at hs
    split at hs
    · rename_i q hq
      cases hs
      cases hl : s.process.loaded with
      | true =>
        -- a load after the first one does nothing
        have hsame : q = s.process := by
          rw [Process.loadSecrets, hl] at hq
          exact (Prod.mk.inj hq).2.symm
        subst hsame
        exact ⟨hu, iff_of_true hP (.inl hl)⟩
      | false =>
        obtain ⟨hu', hiff⟩ := keysAreVaults_load hl hu hq
        refine ⟨hu', hiff.trans ?_⟩
        simp [AgreesAtLoad, hl]
    · cases hs
  | reload vault =>
    simp only [vaultSystem, VaultState.step] at hs
    split at hs
    · rename_i q hq
      cases hs
      exact keysAreVaults_load (p := s.process.forgetSecrets) rfl hu hq
    · cases hs
  | write h d g w =>
    cases hs
    exact hcall Process.view_computeRecordHmac
  | verify stored h d g w =>
    cases hs
    exact hcall Process.view_verifyRecordHmac
  | hmacPan pan =>
    cases hs
    exact hcall Process.view_hmacPan

/-- **The keys in use are Vault's in every state of a run exactly when the environment agrees with Vault at every load
of the run.** -/
theorem keysAreVaults_always_iff (C : Crypto) {environ : TextDict}
    (hu : (Process.start environ).useVault = true) (ls : List VaultStep) :
    (vaultSystem C).Always KeysAreVaults (VaultState.start environ) ls ↔
      (vaultSystem C).Each AgreesAtLoad (VaultState.start environ) ls :=
  System.always_iff_each (I := fun s : VaultState => s.process.useVault = true) keysAreVaults_step hu
    fun _ hh => by cases hh

namespace KeySample

/-- The environment of a process that takes its secrets from Vault. -/
def vaultEnviron : TextDict where
  items := [("USE_VAULT".toList, "true".toList), ("VAULT_TOKEN".toList, ['t'])]
  nodup := by decide

/-- A Vault with the sample secrets, in which the audit key is the given one. -/
def vaultWith (n : UInt8) : Vault :=
  ⟨fun _ _ => true, fun _ _ _ _ => .ok (environ.set serverHmacKeyVar (keyText n))⟩

end KeySample

/-- Before any load nothing is asked for, and the first load takes Vault's keys. -/
theorem keysAreVaults_always_iff_load :
    (vaultSystem KeySample.crypto).Always KeysAreVaults (VaultState.start KeySample.vaultEnviron)
        [.load (KeySample.vaultWith 1)] ↔
      (vaultSystem KeySample.crypto).Each AgreesAtLoad (VaultState.start KeySample.vaultEnviron)
        [.load (KeySample.vaultWith 1)] :=
  keysAreVaults_always_iff KeySample.crypto (by decide) _

/-- After the key was changed in Vault and the secrets were reloaded, the process signs with the old key. -/
theorem reload_keeps_old_key :
    ¬ ∀ (environ : TextDict) (ls : List VaultStep), (Process.start environ).useVault = true →
      (vaultSystem KeySample.crypto).Always KeysAreVaults (VaultState.start environ) ls := by
  intro h
  have hu : (Process.start KeySample.vaultEnviron).useVault = true := by decide
  have hall := h KeySample.vaultEnviron [.load (KeySample.vaultWith 1), .reload (KeySample.vaultWith 4)] hu
  have hrun : ((vaultSystem KeySample.crypto).run (VaultState.start KeySample.vaultEnviron)
      [.load (KeySample.vaultWith 1), .reload (KeySample.vaultWith 4)]).map (fun s =>
        (s.held, s.process.keys.server)) =
      some (some (KeySample.environ.set serverHmacKeyVar (KeySample.keyText 4)), .ok (KeySample.key 1)) := by
    decide
  obtain ⟨s, hs, he⟩ := Option.map_eq_some_iff.mp hrun
  obtain ⟨hheld, hserver⟩ := Prod.mk.inj he
  obtain ⟨t, key, ht, hk, hkey⟩ := (hall.last hs _ hheld).server
  obtain rfl : KeySample.key 1 = key := Except.ok.inj (hserver.symm.trans hkey)
  rw [TextDict.get?_set_self, Option.some.injEq] at ht
  rw [← ht] at hk
  exact absurd hk.1 (by decide)

end ComplianceLoop
