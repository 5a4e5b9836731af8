import ComplianceLoop.Security.SecretsLoader
import ComplianceLoop.Transition.Runs

/-!
# Rotation of the audit key

Record writes, verifications and rotations of `SERVER_HMAC_KEY` in one process that takes its secrets from the
environment. A rotation keeps the old key as the previous one and reloads the secrets, which empties the key caches. In
every run a record verifies exactly when its key is one of the two newest (`verifies_iff_recent_key`).
-/

set_option autoImplicit false

namespace ComplianceLoop

open PyLib Transition

/-- A record, with the key that signed it. -/
structure SignedRecord where
  key : Bytes
  hmac : Text
  agentOutputsHash : Text
  decisionId : PyStr
  guidelineVersionId : PyStr
  writtenAt : Text
  deriving DecidableEq

/-- A process, its keys so far, the newest first, and the records it has signed. -/
structure Rotating where
  process : Process
  history : List Bytes
  log : List SignedRecord
  deriving DecidableEq

/-- What the process is asked for. -/
inductive RotationStep where
  | write (agentOutputsHash : Text) (decisionId guidelineVersionId : PyStr) (writtenAt : Text)
  | verify (storedHmac agentOutputsHash : Text) (decisionId guidelineVersionId : PyStr) (writtenAt : Text)
  | rotate (newKey : Text)

/-- The environment in which the old key is the previous one and the new key is the current one. -/
def rotateServerKey (environ : TextDict) (newKey : Text) : TextDict :=
  (match environ.get? serverHmacKeyVar with
    | some old => environ.set serverHmacKeyPreviousVar old
    | none => environ).set serverHmacKeyVar newKey

namespace Rotating

/-- Before the first call; the key in the environment, if it is one, is the first key. -/
def start (p : Process) : Rotating := ⟨p, p.getServerHmacKey.1.toOption.toList, []⟩

variable (C : Crypto) (vault : Vault) (s : Rotating)

/-- Whether this record verifies now. -/
def verifies (e : SignedRecord) : Except PyExc Bool :=
  (s.process.verifyRecordHmac C e.hmac e.agentOutputsHash e.decisionId e.guidelineVersionId e.writtenAt).1

/-- One call. A rotation takes a valid key that was not used before, and its reload must succeed. -/
def step : RotationStep → Option Rotating
  | .write h d g w =>
    match s.process.computeRecordHmac C h d g w, s.process.getServerHmacKey.1 with
    | (.ok hmac, q), .ok key => some { s with process := q, log := ⟨key, hmac, h, d, g, w⟩ :: s.log }
    | (_, q), _ => some { s with process := q }
  | .verify stored h d g w => some { s with process := (s.process.verifyRecordHmac C stored h d g w).2 }
  | .rotate newKey =>
    match bytesFromHex newKey with
    | .error _ => none
    | .ok key =>
      if key.length = 32 ∧ key ∉ s.history then
        match ({ s.process with environ := rotateServerKey s.process.environ newKey }).reloadSecrets vault with
        | (.ok (), q) => some { s with process := q, history := key :: s.history }
        | (.error _, _) => none
      else none

end Rotating

/-- The system of these calls. -/
def rotation (C : Crypto) (vault : Vault) : System Rotating RotationStep := ⟨Rotating.step C vault⟩

/-! ## The invariant -/

/-- The two newest keys are the ones in use, and every record was signed with a key of the history. -/
structure Window (C : Crypto) (s : Rotating) : Prop where
  environment : s.process.useVault = false
  server : s.process.keys.server = loadHmacKey s.process.environ serverHmacKeyVar
  head : ∀ key, loadHmacKey s.process.environ serverHmacKeyVar = .ok key ↔ s.history.head? = some key
  previous : ∀ {k l rest}, s.history = k :: l :: rest → s.process.keys.previous = some l
  distinct : s.history.Nodup
  length : ∀ k ∈ s.history, k.length = 32
  log : ∀ e ∈ s.log, e.key ∈ s.history ∧
    ∃ m, buildHmacMessage e.agentOutputsHash e.decisionId e.guidelineVersionId e.writtenAt = .ok m ∧
      e.hmac = C.hmac e.key m

theorem useVault_congr {p q : Process}
    (h : q.environ.get? "USE_VAULT".toList = p.environ.get? "USE_VAULT".toList) : q.useVault = p.useVault := by
  rw [Process.useVault, TextDict.get, h, Process.useVault, TextDict.get]

variable {C : Crypto} {vault : Vault}

/-- A call that keeps what is seen of the process keeps the invariant. -/
theorem Window.of_view {s : Rotating} (h : Window C s) {q : Process} (hv : q.view = s.process.view) :
    Window C { s with process := q } := by
  have he : q.environ = s.process.environ := congrArg Process.View.environ hv
  have hk := Process.keys_of_view hv
  exact
    { environment := (useVault_congr (by rw [he])).trans h.environment
      server := by rw [hk, he, h.server]
      head := by rw [he]; exact h.head
      previous := fun hh => by rw [hk]; exact h.previous hh
      distinct := h.distinct
      length := h.length
      log := h.log }

theorem Window.start {p : Process} (hmode : p.useVault = false) (hserver : p.serverHmacKey = none) :
    Window C (Rotating.start p) := by
  have hload : p.getServerHmacKey.1 = loadHmacKey p.environ serverHmacKeyVar := by
    show (fetch (loadHmacKey p.environ serverHmacKeyVar) p.serverHmacKey).1 = _
    rw [hserver, fetch_none]
  have hhist : (Rotating.start p).history = (loadHmacKey p.environ serverHmacKeyVar).toOption.toList := by
    rw [Rotating.start, hload]
  refine ⟨hmode, hload, ?_, ?_, ?_, ?_, fun e he => by cases he⟩
  · intro key
    rw [hhist]
    show loadHmacKey p.environ serverHmacKeyVar = .ok key ↔ _
    cases loadHmacKey p.environ serverHmacKeyVar <;> simp [Except.toOption]
  · intro k l rest h
    rw [hhist] at h
    cases hl : loadHmacKey p.environ serverHmacKeyVar <;> rw [hl] at h <;> simp [Except.toOption] at h
  · rw [hhist]
    cases loadHmacKey p.environ serverHmacKeyVar <;> simp [Except.toOption]
  · intro k hk
    rw [hhist] at hk
    cases hl : loadHmacKey p.environ serverHmacKeyVar with
    | error e => rw [hl] at hk; cases hk
    | ok key =>
      rw [hl] at hk
      obtain rfl : k = key := List.mem_singleton.mp hk
      obtain ⟨t, -, ht⟩ := loadHmacKey_eq_ok.mp hl
      exact ht.2

/-- What a signing call returned. -/
theorem computeRecordHmac_ok {keys : Keys} {h m : Text} {d g : PyStr} {w : Text}
    (hm : computeRecordHmac C keys h d g w = .ok m) : ∃ key message, keys.server = .ok key ∧
      buildHmacMessage h d g w = .ok message ∧ m = C.hmac key message := by
  obtain ⟨key, hk, hm⟩ := bind_eq_ok.mp hm
  obtain ⟨message, hb, rfl⟩ := map_eq_ok.mp hm
  exact ⟨key, message, hk, hb, rfl⟩

/-- The process after a rotation uses the new key and the one before it. -/
theorem rotated_keys {p q : Process} {newKey : Text} {key : Bytes} (hmode : p.useVault = false)
    (hk : IsKey newKey key)
    (h : ({ p with environ := rotateServerKey p.environ newKey } : Process).reloadSecrets vault = (.ok (), q)) :
    q.useVault = false ∧ q.keys.server = loadHmacKey q.environ serverHmacKeyVar ∧
      loadHmacKey q.environ serverHmacKeyVar = .ok key ∧
      ∀ old, loadHmacKey p.environ serverHmacKeyVar = .ok old → q.keys.previous = some old := by
  have hset : ∀ {name : Text}, name ≠ serverHmacKeyVar → name ≠ serverHmacKeyPreviousVar →
      (rotateServerKey p.environ newKey).get? name = p.environ.get? name := by
    intro name h1 h2
    rw [rotateServerKey, TextDict.get?_set_of_ne _ h1]
    split
    · rw [TextDict.get?_set_of_ne _ h2]
    · rfl
  have hmode' : ({ p with environ := rotateServerKey p.environ newKey } : Process).forgetSecrets.useVault = false :=
    (useVault_congr (hset (by decide) (by decide))).trans hmode
  obtain rfl := Process.loadSecrets_environment rfl hmode' h
  have hnew : loadHmacKey (rotateServerKey p.environ newKey) serverHmacKeyVar = .ok key :=
    loadHmacKey_eq_ok.mpr ⟨newKey, by rw [rotateServerKey, TextDict.get?_set_self], hk⟩
  refine ⟨hmode', fetch_none _, hnew, fun old ho => ?_⟩
  obtain ⟨t, ht, hkey⟩ := loadHmacKey_eq_ok.mp ho
  have hprev : (rotateServerKey p.environ newKey).get? serverHmacKeyPreviousVar = some t := by
    rw [rotateServerKey, TextDict.get?_set_of_ne _ (by decide), ht]
    exact TextDict.get?_set_self _ _ _
  show Option.or none (loadPreviousHmacKey (rotateServerKey p.environ newKey)) = some old
  rw [loadPreviousHmacKey_of_isKey hprev hkey]
  rfl

/-- Every call keeps the invariant. -/
theorem Window.step {s t : Rotating} {l : RotationStep} (h : Window C s) (hs : (rotation C vault).step s l = some t) :
    Window C t := by
  cases l with
  | write hash d g w =>
    have hv : (s.process.computeRecordHmac C hash d g w).2.view = s.process.view := Process.view_computeRecordHmac
    have hf : (s.process.computeRecordHmac C hash d g w).1 = _ := Process.computeRecordHmac_fst
    simp only [rotation, Rotating.step] at hs
    cases hc : s.process.computeRecordHmac C hash d g w with
    | mk r q =>
      rw [hc] at hv hf hs
      have hq := h.of_view hv
      cases r with
      | error e =>
        cases hs
        exact hq
      | ok hmac =>
        obtain ⟨key, m, hk, hm, rfl⟩ := computeRecordHmac_ok hf.symm
        have hget : s.process.getServerHmacKey.1 = .ok key := hk
        rw [hget] at hs
        cases hs
        refine { hq with log := List.forall_mem_cons.mpr ⟨⟨?_, m, hm, rfl⟩, h.log⟩ }
        exact List.mem_of_mem_head? ((h.head key).mp (h.server ▸ hk))
  | verify stored hash d g w =>
    cases hs
    exact h.of_view Process.view_verifyRecordHmac
  | rotate newKey =>
    simp only [rotation, Rotating.step] at hs
    split at hs
    · cases hs
    · rename_i key hkey
      split at hs
      · rename_i hnew
        split at hs
        · rename_i q hr
          cases hs
          obtain ⟨hmode, hserver, hload, hprev⟩ := rotated_keys h.environment ⟨hkey, hnew.1⟩ hr
          refine ⟨hmode, hserver, ?_, ?_, List.nodup_cons.mpr ⟨hnew.2, h.distinct⟩, ?_, ?_⟩
          · intro k
            rw [hload]
            simp
          · intro k l rest hh
            obtain ⟨-, hh⟩ := List.cons.inj hh
            exact hprev l ((h.head l).mpr (by rw [hh]; rfl))
          · exact List.forall_mem_cons.mpr ⟨hnew.1, h.length⟩
          · intro e he
            exact ⟨List.mem_cons_of_mem _ (h.log e he).1, (h.log e he).2⟩
        · cases hs
      · cases hs

/-! ## Which records verify -/

/-- Under the invariant a logged record verifies exactly when its key is one of the two newest. -/
theorem Window.verifies_iff (hinj : C.HmacKeyed) {s : Rotating} (h : Window C s) {e : SignedRecord}
    (he : e ∈ s.log) : s.verifies C e = .ok true ↔ e.key ∈ s.history.take 2 := by
  obtain ⟨hkey, m, hm, hmac⟩ := h.log e he
  have hlower : lower e.hmac = C.hmac e.key m := by rw [hmac, Crypto.lower_hmac]
  rw [Rotating.verifies, Process.verifyRecordHmac_fst, verifyRecordHmac_eq_true_iff hm]
  cases hh : s.history with
  | nil =>
    rw [hh] at hkey
    cases hkey
  | cons k rest =>
    have hserver : s.process.keys.server = .ok k := h.server.trans ((h.head k).mpr (by rw [hh]; rfl))
    have hone : ∀ {k' : Bytes}, k' ∈ s.history → (lower e.hmac = C.hmac k' m ↔ e.key = k') := fun hk' => by
      rw [hlower]
      exact ⟨hinj (h.length _ hkey) (h.length _ hk'), fun heq => heq ▸ rfl⟩
    have hk : k ∈ s.history := hh ▸ List.mem_cons_self
    cases rest with
    | nil =>
      -- the only key so far signed every record
      obtain rfl : e.key = k := by simpa [hh] using hkey
      exact iff_of_true ⟨e.key, hserver, .inl hlower⟩ List.mem_cons_self
    | cons l rest =>
      have hl : l ∈ s.history := hh ▸ List.mem_cons_of_mem _ List.mem_cons_self
      have hprevious : s.process.keys.previous = some l := h.previous hh
      have hmem : e.key ∈ (k :: l :: rest).take 2 ↔ e.key = k ∨ e.key = l := by simp
      rw [hmem]
      constructor
      · rintro ⟨key, hs, hc | ⟨previous, hp, hc⟩⟩
        · cases hserver.symm.trans hs
          exact .inl ((hone hk).mp hc)
        · cases hprevious.symm.trans hp
          exact .inr ((hone hl).mp hc)
      · rintro (heq | heq)
        · exact ⟨k, hserver, .inl ((hone hk).mpr heq)⟩
        · exact ⟨k, hserver, .inr ⟨l, hprevious, (hone hl).mpr heq⟩⟩

/-- **In every run a record verifies exactly when it was signed with one of the two newest keys.** -/
theorem verifies_iff_recent_key (hinj : C.HmacKeyed) {p : Process} (hmode : p.useVault = false)
    (hserver : p.serverHmacKey = none) {ls : List RotationStep} {s : Rotating}
    (hrun : (rotation C vault).run (Rotating.start p) ls = some s) {e : SignedRecord} (he : e ∈ s.log) :
    s.verifies C e = .ok true ↔ e.key ∈ s.history.take 2 :=
  (System.invariant_run Window.step (Window.start hmode hserver) hrun).verifies_iff hinj he

namespace KeySample

/-- A record is written under the first key, and the key is rotated twice. -/
def rotatedTwice : Rotating :=
  ((rotation crypto noVault).run (Rotating.start (Process.start environ))
    [.write (List.replicate 64 'a') (pyStr ['d']) (pyStr ['g']) ['w'], .rotate (keyText 4), .rotate (keyText 5)]).getD
      (Rotating.start (Process.start environ))

/-- That record. -/
def record : SignedRecord :=
  ⟨key 1, crypto.hmac (key 1) message, List.replicate 64 'a', pyStr ['d'], pyStr ['g'], ['w']⟩

end KeySample

theorem verifies_iff_recent_key_rotatedTwice :
    KeySample.rotatedTwice.verifies KeySample.crypto KeySample.record = .ok true ↔
      KeySample.key 1 ∈ KeySample.rotatedTwice.history.take 2 :=
  verifies_iff_recent_key (knownCrypto_hmacKeyed _ _ _) (p := Process.start KeySample.environ) (by decide) rfl
    (by decide : (rotation KeySample.crypto KeySample.noVault).run
      (Rotating.start (Process.start KeySample.environ))
      [.write (List.replicate 64 'a') (pyStr ['d']) (pyStr ['g']) ['w'], .rotate (KeySample.keyText 4),
        .rotate (KeySample.keyText 5)] = some KeySample.rotatedTwice)
    (by decide : KeySample.record ∈ KeySample.rotatedTwice.log)

end ComplianceLoop
