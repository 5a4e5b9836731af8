import ComplianceLoop.Security.KeyCaches

/-!
# `security/secrets_loader.py`

The secrets come from the environment or from Vault, are checked, and are cached. Vault values reach the rest of the
code through the environment, where a variable that is already set keeps its value. A load that succeeds empties the
caches of the HMAC keys and of the PAN key, not that of the AES key (`loadSecrets_environment`, `loadSecrets_vault`).
-/

set_option autoImplicit false

namespace ComplianceLoop

open PyLib

/-! ## Reading the secrets -/

/-- `REQUIRED_SECRETS`. -/
def requiredSecrets : List Text :=
  [serverHmacKeyVar, panHmacKeyVar, aesKeyVar, "POSTGRES_PASSWORD".toList, "REDIS_PASSWORD".toList,
    "MINIO_SECRET_KEY".toList]

/-- `OPTIONAL_SECRETS`. -/
def optionalSecrets : List Text :=
  [serverHmacKeyPreviousVar, "SENDGRID_API_KEY".toList, "DEMO_API_KEY".toList, "GROQ_API_KEY".toList,
    "VAULT_TOKEN".toList, "GRAFANA_ADMIN_PASSWORD".toList, "FLOWER_BASIC_AUTH".toList]

/-- `MUST_DIFFER_PAIRS`. -/
def mustDifferPairs : List (Text × Text) :=
  [(serverHmacKeyVar, panHmacKeyVar), (serverHmacKeyVar, aesKeyVar), (panHmacKeyVar, aesKeyVar)]

/-- The keys whose format is checked, with their lengths. -/
def cryptoKeys : List (Text × Nat) := [(serverHmacKeyVar, 32), (panHmacKeyVar, 32), (aesKeyVar, 32)]

/-- A Vault server, as `hvac.Client` shows it; the values of a secret are given as `str` makes them. -/
structure Vault where
  isAuthenticated : (addr token : Text) → Bool
  /-- The data of the secret, or the text of the exception. -/
  readSecretVersion : (addr token path mountPoint : Text) → Except Text TextDict

/-- `_load_from_vault`, with `hvac` installed. -/
def loadFromVault (vault : Vault) (environ : TextDict) : Except PyExc TextDict :=
  let vaultAddr := environ.get "VAULT_ADDR".toList "http://localhost:8200".toList
  let vaultToken := environ.get "VAULT_TOKEN".toList []
  let mountPath := environ.get "VAULT_MOUNT_PATH".toList "secret".toList
  let secretPath := environ.get "VAULT_SECRET_PATH".toList "complianceloop".toList
  let place := mountPath ++ '/' :: secretPath
  if vaultToken.isEmpty then raise .runtimeError "VAULT_TOKEN is not set. Cannot load secrets from Vault.".toList
  else if !vault.isAuthenticated vaultAddr vaultToken then
    raise .runtimeError ("Vault authentication failed. Check VAULT_TOKEN and VAULT_ADDR (".toList ++ vaultAddr ++
      ").".toList)
  else match vault.readSecretVersion vaultAddr vaultToken secretPath mountPath with
    | .error exc =>
      raise .runtimeError ("Failed to read secrets from Vault at ".toList ++ place ++ ": ".toList ++ exc)
    | .ok secretsData =>
      if secretsData.items.isEmpty then
        raise .runtimeError ("No data found at Vault path ".toList ++ place ++
          ". Ensure secrets have been initialised (see infra/vault/init_secrets.sh).".toList)
      else .ok secretsData

/-- `_load_from_environment`. -/
def loadFromEnvironment (environ : TextDict) : TextDict :=
  let named := (requiredSecrets ++ optionalSecrets ++ [serverHmacKeyPreviousVar]).foldl
    (fun result name =>
      let value := environ.get name []
      if value.isEmpty then result else result.set name value) TextDict.empty
  environ.items.foldl
    (fun result p => if p.2.isEmpty || (result.get? p.1).isSome then result else result.set p.1 p.2) named

/-! ## Validation -/

/-- A `for` loop whose body may raise. -/
def forEach {α : Type} (body : α → Except PyExc Unit) : List α → Except PyExc Unit
  | [] => .ok ()
  | a :: as => (body a).bind fun _ => forEach body as

theorem forEach_eq_ok {α : Type} {body : α → Except PyExc Unit} {as : List α} :
    forEach body as = .ok () ↔ ∀ a ∈ as, body a = .ok () := by
  induction as with
  | nil => simp [forEach]
  | cons a as ih =>
    rw [forEach, bind_eq_ok, List.forall_mem_cons, ← ih]
    constructor
    · rintro ⟨u, hu, h⟩
      exact ⟨hu, h⟩
    · rintro ⟨hu, h⟩
      exact ⟨(), hu, h⟩

/-- `", ".join(names)`. -/
def joinNames : List Text → Text
  | [] => []
  | [n] => n
  | n :: ns => n ++ ", ".toList ++ joinNames ns

/-- Two secrets must not be equal. -/
def checkPair (secrets : TextDict) (pair : Text × Text) : Except PyExc Unit :=
  let valA := secrets.get pair.1 []
  let valB := secrets.get pair.2 []
  if !valA.isEmpty && !valB.isEmpty && valA = valB then
    raise .runtimeError ("SECURITY VIOLATION: ".toList ++ pair.1 ++ " and ".toList ++ pair.2 ++
      (" must be different keys. Using the same key for multiple purposes reduces security. " ++
        "Generate separate keys for each.").toList)
  else .ok ()

/-- A key must be hexadecimal text for so many bytes. -/
def checkCryptoKey (secrets : TextDict) (key : Text × Nat) : Except PyExc Unit :=
  let value := secrets.get key.1 []
  if value.isEmpty then .ok ()
  else match bytesFromHex value with
    | .error _ =>
      raise .runtimeError (key.1 ++ " is not valid hex. Must be a hex string produced by: ".toList ++ tokenHexCommand)
    | .ok keyBytes =>
      if keyBytes.length ≠ key.2 then
        raise .runtimeError (key.1 ++ " must be ".toList ++ decimal key.2 ++ " bytes (".toList ++ decimal (key.2 * 2) ++
          " hex chars). Got ".toList ++ decimal keyBytes.length ++ " bytes (".toList ++ decimal value.length ++
          " hex chars).".toList)
      else .ok ()

/-- `_validate_secrets`. -/
def validateSecrets (secrets : TextDict) : Except PyExc Unit :=
  let missing := requiredSecrets.filter fun name => (secrets.get name []).isEmpty
  if !missing.isEmpty then
    raise .runtimeError ("Missing required secrets: ".toList ++ joinNames missing ++
      ". Check your .env file or Vault configuration.".toList)
  else (forEach (checkPair secrets) mustDifferPairs).bind fun _ => forEach (checkCryptoKey secrets) cryptoKeys

/-- A secret that passed the check of the keys is one. -/
theorem isKey_of_checkCryptoKey {secrets : TextDict} {name t : Text} (hg : secrets.get? name = some t) (hne : t ≠ [])
    (h : checkCryptoKey secrets (name, 32) = .ok ()) : ∃ key, IsKey t key := by
  have ht : secrets.get name [] = t := by simp [TextDict.get, hg]
  unfold checkCryptoKey at h
  simp only [ht] at h
  rw [if_neg (by simpa using hne)] at h
  split at h
  · exact absurd h (raise_ne_ok _ _ _)
  · rename_i key hk
    split at h
    · exact absurd h (raise_ne_ok _ _ _)
    · rename_i hl
      exact ⟨key, hk, not_not.mp hl⟩

/-- What `_validate_secrets` accepts. -/
theorem validateSecrets_eq_ok {secrets : TextDict} : validateSecrets secrets = .ok () ↔
    (∀ name ∈ requiredSecrets, secrets.get name [] ≠ []) ∧
      (∀ pair ∈ mustDifferPairs, checkPair secrets pair = .ok ()) ∧
        ∀ key ∈ cryptoKeys, checkCryptoKey secrets key = .ok () := by
  have hmissing : (!(requiredSecrets.filter fun name => (secrets.get name []).isEmpty).isEmpty) = false ↔
      ∀ name ∈ requiredSecrets, secrets.get name [] ≠ [] := by
    rw [Bool.not_eq_false', List.isEmpty_iff, List.filter_eq_nil_iff]
    exact forall_congr' fun name => imp_congr_right fun _ => not_congr List.isEmpty_iff
  unfold validateSecrets
  dsimp only
  cases hm : !(requiredSecrets.filter fun name => (secrets.get name []).isEmpty).isEmpty with
  | true =>
    rw [if_pos rfl]
    refine iff_of_false (raise_ne_ok _ _ _) fun h => ?_
    rw [hmissing.mpr h.1] at hm
    cases hm
  | false =>
    rw [if_neg Bool.false_ne_true, bind_eq_ok, and_iff_right (hmissing.mp hm)]
    constructor
    · rintro ⟨_, hp, hc⟩
      exact ⟨forEach_eq_ok.mp hp, forEach_eq_ok.mp hc⟩
    · rintro ⟨hp, hc⟩
      exact ⟨(), forEach_eq_ok.mpr hp, forEach_eq_ok.mpr hc⟩

/-- A secret that is not missing. -/
theorem get?_of_get_ne_nil {secrets : TextDict} {name : Text} (h : secrets.get name [] ≠ []) :
    ∃ t, secrets.get? name = some t ∧ t ≠ [] := by
  cases hg : secrets.get? name with
  | none => exact absurd (by simp [TextDict.get, hg]) h
  | some t => exact ⟨t, rfl, by simpa [TextDict.get, hg] using h⟩

/-- **What valid secrets are**: the keys are there, and they differ as texts. -/
theorem validateSecrets_keys {secrets : TextDict} (h : validateSecrets secrets = .ok ()) :
    (∀ name ∈ [serverHmacKeyVar, panHmacKeyVar, aesKeyVar], ∃ t key, secrets.get? name = some t ∧ IsKey t key) ∧
      secrets.get? serverHmacKeyVar ≠ secrets.get? panHmacKeyVar := by
  obtain ⟨hset, hp, hc⟩ := validateSecrets_eq_ok.mp h
  have hkey : ∀ name ∈ [serverHmacKeyVar, panHmacKeyVar, aesKeyVar],
      ∃ t key, secrets.get? name = some t ∧ IsKey t key := by
    intro name hn
    obtain ⟨t, hg, hne⟩ := get?_of_get_ne_nil
      (hset name (by simp only [requiredSecrets, List.mem_cons] at hn ⊢; tauto))
    have hck := hc (name, 32) (by simp only [cryptoKeys, List.mem_cons, Prod.mk.injEq] at hn ⊢; tauto)
    obtain ⟨key, hk⟩ := isKey_of_checkCryptoKey hg hne hck
    exact ⟨t, key, hg, hk⟩
  refine ⟨hkey, fun he => ?_⟩
  obtain ⟨t, key, hg, hk⟩ := hkey serverHmacKeyVar List.mem_cons_self
  have hpair := hp (serverHmacKeyVar, panHmacKeyVar) List.mem_cons_self
  unfold checkPair at hpair
  simp [TextDict.get, ← he, hg, hk.ne_nil] at hpair

/-! ## Loading -/

/-- `os.environ[key] = value`. -/
def setenv (environ : TextDict) (key value : Text) : Except PyExc TextDict :=
  if (key ++ value).contains '\x00' then raise .valueError "embedded null byte".toList
  else if key.contains '=' then raise .valueError "illegal environment variable name".toList
  else if key.isEmpty then raise .osError "[Errno 22] Invalid argument".toList
  else .ok (environ.set key value)

theorem setenv_eq_ok {environ environ' : TextDict} {key value : Text} (h : setenv environ key value = .ok environ') :
    environ' = environ.set key value := by
  unfold setenv at h
  split at h
  · cases h
  · split at h
    · cases h
    · split at h
      · cases h
      · exact (Except.ok.inj h).symm

/-- Put the secrets into the environment, where a variable that is there stays as it is. -/
def injectSecrets : List (Text × Text) → TextDict → Except PyExc Unit × TextDict
  | [], environ => (.ok (), environ)
  | (key, value) :: rest, environ =>
    if (environ.get? key).isSome then injectSecrets rest environ
    else match setenv environ key value with
      | .error e => (.error e, environ)
      | .ok environ => injectSecrets rest environ

theorem get?_injectSecrets {ps : List (Text × Text)} (hn : (ps.map Prod.fst).Nodup) {e e' : TextDict}
    (h : injectSecrets ps e = (.ok (), e')) (k : Text) : e'.get? k = (e.get? k).or (getItem k ps) := by
  induction ps generalizing e with
  | nil =>
    cases h
    simp [getItem]
  | cons p ps ih =>
    obtain ⟨key, value⟩ := p
    rw [List.map_cons, List.nodup_cons] at hn
    rw [injectSecrets] at h
    rw [getItem]
    split at h
    · rename_i hs
      rw [ih hn.2 h]
      by_cases hk : key = k
      · obtain ⟨v, hv⟩ := Option.isSome_iff_exists.mp (hk ▸ hs)
        rw [hv, Option.some_or, Option.some_or]
      · rw [if_neg hk]
    · rename_i hs
      split at h
      · cases h
      · rename_i e1 he
        rw [ih hn.2 h, setenv_eq_ok he, TextDict.get?_set]
        by_cases hk : key = k
        · have hnone : e.get? k = none := by simpa [hk] using hs
          rw [if_pos hk.symm, if_pos hk, hnone, Option.some_or, Option.none_or]
        · rw [if_neg fun he => hk he.symm, if_neg hk]

namespace Process

variable (vault : Vault) (p : Process)

/-- Whether `USE_VAULT` is set to `true`, in any letter case. -/
def useVault : Bool := lower (p.environ.get "USE_VAULT".toList "false".toList) = "true".toList

/-- The second half of `load_secrets`: check the secrets, cache them, and empty the caches of the keys. -/
def cacheSecrets (secrets : TextDict) : Except PyExc Unit × Process :=
  match validateSecrets secrets with
  | .error e => (.error e, p)
  | .ok () =>
    (.ok (), { ({ p with secretCache := p.secretCache.update secrets }).invalidateKeyCache.invalidatePanKeyCache with
      loaded := true })

/-- `load_secrets`. -/
def loadSecrets : Except PyExc Unit × Process :=
  if p.loaded then (.ok (), p)
  else if p.useVault then
    match loadFromVault vault p.environ with
    | .error e => (.error e, p)
    | .ok secrets =>
      match injectSecrets secrets.items p.environ with
      | (.error e, environ) => (.error e, { p with environ := environ })
      | (.ok (), environ) => ({ p with environ := environ }).cacheSecrets secrets
  else p.cacheSecrets (loadFromEnvironment p.environ)

/-- `get_secret`. -/
def getSecret (name : Text) (default : Option Text) : Except PyExc Text :=
  match p.secretCache.get? name with
  | some value => .ok value
  | none =>
    let envValue := p.environ.get name []
    if !envValue.isEmpty then .ok envValue
    else match default with
      | some d => .ok d
      | none => raise .keyError ("Secret '".toList ++ name ++
          ("' is not available. Ensure load_secrets() has been called at startup and the secret is " ++
            "configured.").toList)

/-- What `reload_secrets` forgets before it loads. -/
def forgetSecrets : Process :=
  ({ p with loaded := false, secretCache := .empty }).invalidateKeyCache.invalidatePanKeyCache

/-- `reload_secrets`. -/
def reloadSecrets : Except PyExc Unit × Process := p.forgetSecrets.loadSecrets vault

variable {vault} {p}

/-- The process after its secrets were cached: the AES key alone stays. -/
theorem cacheSecrets_eq_ok {secrets : TextDict} {q : Process} (h : p.cacheSecrets secrets = (.ok (), q)) :
    validateSecrets secrets = .ok () ∧
      q = ⟨p.environ, p.secretCache.update secrets, true, none, none, none, p.aesKey⟩ := by
  unfold cacheSecrets at h
  split at h
  · cases h
  · rename_i hv
    cases h
    exact ⟨hv, rfl⟩

/-- **A load from the environment.** -/
theorem loadSecrets_environment (hl : p.loaded = false) (hu : p.useVault = false) {q : Process}
    (h : p.loadSecrets vault = (.ok (), q)) :
    q = ⟨p.environ, p.secretCache.update (loadFromEnvironment p.environ), true, none, none, none, p.aesKey⟩ := by
  unfold loadSecrets at h
  rw [hl, hu] at h
  exact (cacheSecrets_eq_ok h).2

/-- **A load from Vault.** -/
theorem loadSecrets_vault (hl : p.loaded = false) (hu : p.useVault = true) {q : Process}
    (h : p.loadSecrets vault = (.ok (), q)) :
    ∃ secrets environ, loadFromVault vault p.environ = .ok secrets ∧
      injectSecrets secrets.items p.environ = (.ok (), environ) ∧ validateSecrets secrets = .ok () ∧
      q = ⟨environ, p.secretCache.update secrets, true, none, none, none, p.aesKey⟩ := by
  unfold loadSecrets at h
  rw [hl, hu] at h
  simp only [Bool.false_eq_true, if_false, if_true] at h
  split at h
  · cases h
  · rename_i secrets hs
    split at h
    · cases h
    · rename_i environ hi
      obtain ⟨hv, rfl⟩ := cacheSecrets_eq_ok h
      exact ⟨secrets, environ, hs, hi, hv, rfl⟩

end Process

/-! ## A small environment -/

namespace KeySample

/-- The key of 32 octets `n`, and its text. -/
def key (n : UInt8) : Bytes := List.replicate 32 n

def keyText (n : UInt8) : Text := hexBytes (key n)

/-- An environment with all required secrets. -/
def environ : TextDict where
  items :=
    [(serverHmacKeyVar, keyText 1), (panHmacKeyVar, keyText 3), (aesKeyVar, keyText 2),
      ("POSTGRES_PASSWORD".toList, ['p']), ("REDIS_PASSWORD".toList, ['r']), ("MINIO_SECRET_KEY".toList, ['m'])]
  nodup := by decide

/-- A signed message. -/
def message : Bytes := utf8 (hmacText (List.replicate 64 'a') ['d'] ['g'] ['w'])

def macs : DigestTable (Bytes × Bytes) where
  entries :=
    [((key 1, message), digestText 0x9a3e7b0f944075eeb8b5d716a75492b0f87a194cc4a680e302b08b7440fcb5ad),
      ((key 4, message), digestText 0x4097d3eb00dfdf6ee1a4fc80e884b1044f458eb5ff844fcab4f7570defedc063),
      ((key 5, message), digestText 0x094eabb075cbcbdb60903b7e7fd22955f6b8ff2ab26d99bb3c1ca62a770feb98)]
  form := by decide
  distinct := by decide

def plaintext : Bytes := utf8 "payload".toList

/-- A nonce of twelve octets `n`. -/
def nonce (n : UInt8) : Nonce := ⟨List.replicate 12 n, rfl⟩

def ciphers : CipherTable where
  entries :=
    [⟨key 2, (nonce 0).val, plaintext, octets [(23, 0x2a1343a28a4d3ac1ccc4b1734735d42a5435710589642c)],
        by decide, by decide⟩,
      ⟨key 6, (nonce 7).val, plaintext, octets [(23, 0xd29e8b58e986b7d79ae20487d7c07930959cb2dfc5fff5)],
        by decide, by decide⟩]
  distinct := by decide

/-- The primitives, with the answers for these inputs. -/
def crypto : Crypto := knownCrypto ⟨[], by simp, List.nodup_nil⟩ macs ciphers

/-- No Vault server. -/
def noVault : Vault := ⟨fun _ _ => false, fun _ _ _ _ => .error []⟩

end KeySample

end ComplianceLoop
