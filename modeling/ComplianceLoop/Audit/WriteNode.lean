import ComplianceLoop.Audit.Verifier
import ComplianceLoop.Audit.Writer

/-!
# What a run of the audit node leaves

`write_node` raises for a write that is already committed when `float` refuses the confidence: the conversion stands
after the commit (`writeNode_raises_iff`). The session of the write, and that of the upload it schedules, is the
production one whatever the demo flag says (`demoIsolated_iff`).
-/

set_option autoImplicit false

namespace ComplianceLoop

open PyLib

variable {D : Type} [FloatOps D] {C : Crypto}

/-- The audit records of both databases. -/
def Databases.auditRows (dbs : Databases) : List AuditRecord := dbs.production.auditRecords ++ dbs.demo.auditRecords

/-- An audit record was added between the two states. -/
def Committed (before after : Databases) : Prop := before.auditRows.length < after.auditRows.length

instance (before after : Databases) : Decidable (Committed before after) :=
  inferInstanceAs (Decidable (before.auditRows.length < after.auditRows.length))

theorem committed_withRecord (dbs : Databases) (r : AuditRecord) : Committed dbs (dbs.withRecord r) := by
  simp only [Committed, Databases.auditRows, Databases.withRecord, List.length_append, List.length_singleton]
  omega

/-- A row is committed exactly under `Commits`. -/
theorem committed_writeNode_iff {env : WriteEnv D} {dbs : Databases} {s : PipelineState D} :
    Committed dbs (writeNode C env dbs s).dbs ↔ Commits env dbs s := by
  constructor
  · intro hc
    by_contra h
    rw [(writeNode_of_not_commits h).2.1] at hc
    exact lt_irrefl _ hc
  · intro h
    obtain ⟨i, hd, -⟩ := writeNode_of_commits (C := C) h
    rw [hd]
    exact committed_withRecord _ _

/-- **The failure report is exact unless the row is committed and then the acknowledgement is lost or `float` refuses
the confidence.** -/
theorem writeNode_raises_iff (env : WriteEnv D) (dbs : Databases) (s : PipelineState D) :
    (returned (writeNode C env dbs s).result = false ↔ ¬ Committed dbs (writeNode C env dbs s).dbs) ↔
      ¬ Commits env dbs s ∨ (env.commit = .done ∧ returned (confidenceOf s) = true) := by
  rw [committed_writeNode_iff]
  by_cases h : Commits env dbs s
  · obtain ⟨i, -, -, hr, -⟩ := writeNode_of_commits (C := C) h
    rw [← hr]
    simp [h]
  · have hr := (writeNode_of_not_commits (C := C) h).1
    simp [h, hr]

/-! ## A small installation -/

namespace Sample

def uuid (n : Nat) : Uuid := ⟨Fin.ofNat _ n⟩

def serverKey : Bytes := List.replicate 32 1

def aesKey : Bytes := List.replicate 32 2

def keys : Keys := ⟨.ok serverKey, none, .ok aesKey⟩

def nonce : Nonce := ⟨List.replicate 12 0, rfl⟩

/-- Noon of the first of June 2026, UTC. -/
def now : DateTime :=
  ⟨⟨2026, 6, 1, by decide, by decide, by decide⟩, ⟨12, 0, 0, 0, by decide, by decide, by decide, by decide⟩,
    some utcOffset⟩

/-- The same instant at an offset of five hours and a half. -/
def nowInKolkata : DateTime :=
  ⟨⟨2026, 6, 1, by decide, by decide, by decide⟩, ⟨17, 30, 0, 0, by decide, by decide, by decide, by decide⟩,
    some ⟨19800000000, by decide⟩⟩

/-- The canonical text of a document result. -/
def documentText (result : Text) : Text := "\x7b\"document\":".toList ++ result ++ ['\x7d']

def signalTrue : Text := documentText "\x7b\"signal\":true\x7d".toList

def signalFalse : Text := documentText "\x7b\"signal\":false\x7d".toList

/-- The five agent results of which only the document result is there. -/
def fiveResults : Text :=
  "\x7b\"document\":".toList ++ "\x7b\"signal\":true\x7d".toList ++ ",\"rag\":null".toList ++
    ",\"sanctions\":".toList ++ "null".toList ++ ",\"temporal\":".toList ++ "null".toList ++
    ",\"transaction\":".toList ++ "null\x7d".toList

/-- A dict with the integer keys 2 and 10, as it is written and as it is written once it was read back. -/
def numberedTrue : Text := documentText "\x7b\"2\":true,\"10\":false\x7d".toList

def numberedRead : Text := documentText "\x7b\"10\":false,\"2\":true\x7d".toList

/-- What is signed for the first decision, whose id is given in some text. -/
def message (hash decisionText : Text) : Bytes := utf8 (hmacText hash decisionText (uuid 3).str now.isoformat)

/-- The text of the payload for some agent outputs. -/
def payloadText (outputs : Text) : Text :=
  "\x7b\"agent_outputs\":".toList ++ outputs ++ ",\"application_id\":\"".toList ++ (uuid 2).str ++
    "\",\"confidence\":".toList ++ "1.0,".toList ++ "\"decision_id\":\"".toList ++ (uuid 1).str ++
    "\",\"guideline_".toList ++ "version_id\":\"".toList ++ (uuid 3).str ++ "\",\"outcome\":".toList ++
    "\"APPROVE\",".toList ++ "\"rationale_".toList ++ "chain\":[],".toList ++ "\"written_at\":\"".toList ++
    now.isoformat ++ "\"\x7d".toList

/-- `{"agent_outputs":...}` -/
def shortPayloadText (outputs : Text) : Text := "\x7b\"agent_outputs\":".toList ++ outputs ++ ['\x7d']

def hash : Text := digestText 0x9c2ed3bae5fdf563f9e75d73eaa8768aeecdcd64ee63b6a5eeb9c46560c85c5e

def fiveResultsHash : Text := digestText 0x6564a23fa39180271f2a152e10bc43109567999fe775bb0dc271f5eac571b0d3

def numberedHash : Text := digestText 0x97ee003202ec3db138eeb78017f61fd7862b31f7463d8207618db9d944b8a741

def digests : DigestTable Bytes where
  entries :=
    [(utf8 signalTrue, hash), (utf8 fiveResults, fiveResultsHash), (utf8 numberedTrue, numberedHash),
      (utf8 numberedRead, digestText 0x1ae4c4807c63fa11c123cc0ea0cccd90a648724823ebd3baf0bff1ad48c72e3e),
      (utf8 signalFalse, digestText 0x9236f45aa10b2aebf6a1c9356cce65f524fd991b9fe1adb3b3fb4d6e88463104)]
  form := by decide +kernel
  distinct := by decide +kernel

/-- The decision id in braces. -/
def bracedId : Text := '\x7b' :: ((uuid 1).str ++ ['\x7d'])

def macs : DigestTable (Bytes × Bytes) where
  entries :=
    [((serverKey, message hash (uuid 1).str),
        digestText 0x4df2bb75e04afbf92fcd88770fac21f3e876b8b9dddf20cdec613a45e64f0728),
      ((serverKey, message fiveResultsHash (uuid 1).str),
        digestText 0x7d62ebdde5e56f86528c790530eb06548bcc978caa80547beb6dbe1177db9e55),
      ((serverKey, message fiveResultsHash bracedId),
        digestText 0xcb183d366b3f8e04b993b427f99d551bc2468ac32c7c7f5f69515e176116e8d0),
      ((serverKey, message numberedHash (uuid 1).str),
        digestText 0xaa7d3c22923f144bf446ae140c856d0da1ff9238d2c1a667ca9aba04e894722d),
      ((serverKey, message (hash.map Char.toUpper) (uuid 1).str),
        digestText 0xc04945c7180e37b1885450478ac44c0ecd5bd888baf5c5bc956dd62fcdd366b7),
      ((serverKey, message [] (uuid 1).str),
        digestText 0x43dc2989730c62d58dbb8b2e8a9a8bb7629e9fcc63f8015052f7007222eb352a)]
  form := by decide +kernel
  distinct := by decide +kernel

def signalTrueCiphertext : Bytes :=
  octets
    [(44, 0x21505ba980422aff44e7d7d315b4e6b7dd91acfd677d3ea93298cc2ba3fac362ecaad73fcade1f7beef190eb),
      (48, 0x186e1a0502cdd31a39d8c5ecbd0cb11bd8fca2972ac6e09eb33179cde5a5f715dfa38abcee47291afbb3f072d5372ab2),
      (48, 0x102f73cb4577aa2fe112bb3b4c3f866f3ceb0c8ce25c2b55f6156dc2e5576ce2dae44324603a42d874dcabe78b715ccb),
      (48, 0xae6d1c99278cc7b2af127a141fd96477678ae67071d6c7c762a3c8f6f359948555de943fc974c87033442b157e4796d9),
      (48, 0xcf2c030cba25b7ffe5b34e513c151d06269d5cdb9b1d4840d974a859fbd56e1d7a0698a85bfdcca1e016bee6adec9946),
      (48, 0xb187097031d6beaee258fc3a03100a18fc1aa679416fbb1aed8045303672af1c0a490065855f6cdf4c218629d2a773d6),
      (48, 0xbaa5291fadeb7fbd58b51f342d0858f98531668d3e57b00abc6ad725f14c485194d6df3f92f47bab136b19a3ff6e3233)]

def numberedTrueCiphertext : Bytes :=
  octets
    [(2, 0x2150),
      (48, 0x5ba980422aff44e7d7d315b4e6b7dd91acfd677d3ea93298cc2ba3fac323a7f7cd2cd399092dadb4d7ac0323541717c0),
      (48, 0xc25f78d8c1f5be0b8d13c8b7f7db459fb48cb92379cdf8a5f715dfbe97bcee473407fbb3f06fc8372ab2103273cb4577),
      (48, 0xaa2df30ea9681363c22a7aed0d81e1177501b64624c2bb0321bb85af482f5c3a55932190c4bedf6356d9ae6d0199278c),
      (48, 0xc7afb2127a1402c464776797fb7071d6c7da62a3c8f6f35886994789d1678f3d867e28481006775c8bd5ff343917ad6e),
      (48, 0xe2b38aea1a4336071d063b9d5cdb9b005540d974b544fbd56e00670698a85be0cca1e016bee5bff08b19f4c048337edc),
      (48, 0xe9e0a376c10f73657e1c8e66d644765ef059a1934821007ea91c0f427d3cb66329931969b4008ae06afbb2a57f40e186),
      (48, 0x2efb4ca20d30300a5f808435718d3f39b108ad6ad725f14c411ce00746614f4cdb13abef16edd1e0136801b285c3f045)]

def signalFalseCiphertext : Bytes :=
  octets
    [(15, 0x21505ba980422aff44e7d7d315b4e6),
      (48, 0xb7dd91acfd677d3ea93298cc2ba3fac362ecaad73fcade1f69fde886f3183f4521a62ba8252f476c5510ecf54edfc585)]

def ciphers : CipherTable where
  entries :=
    [⟨aesKey, nonce.val, utf8 (payloadText signalTrue), signalTrueCiphertext, by decide +kernel, by decide +kernel⟩,
      ⟨aesKey, nonce.val, utf8 (payloadText numberedTrue), numberedTrueCiphertext, by decide +kernel,
        by decide +kernel⟩,
      ⟨aesKey, nonce.val, utf8 (shortPayloadText signalFalse), signalFalseCiphertext, by decide +kernel,
        by decide +kernel⟩]
  distinct := by decide +kernel

/-- The primitives, with the digests, MACs and ciphertexts of this installation. -/
def crypto : Crypto := knownCrypto digests macs ciphers

theorem crypto_shaInjective : crypto.ShaInjective := knownCrypto_shaInjective _ _ _

theorem crypto_hmacBinding : crypto.HmacBinding := knownCrypto_hmacBinding _ _ _

/-- A working installation, up to the commit. -/
def env (commit : Attempt) : WriteEnv WholeFloat where
  keys := keys
  repr _ := []
  now := now
  now_utc := rfl
  recordId := uuid 4
  tagQuery := true
  commit := commit
  dispatch := true

/-- Production with one approved decision and no audit record, and an empty demo database. -/
def dbs : Databases where
  production :=
    { auditRecords := []
      decisions := [⟨uuid 1, .approve⟩]
      guidelineVersions := [⟨uuid 3, ["temporal".toList]⟩]
      applications := [uuid 2] }
  demo := ⟨[], [], [], []⟩

/-- A state that names that decision. -/
def state (isDemo : Bool) (confidence : PyVal WholeFloat) : PipelineState WholeFloat where
  decisionId := some (.uuid (uuid 1))
  applicationId := some (.uuid (uuid 2))
  guidelineVersionId := some (.uuid (uuid 3))
  documentResult := some (.dict [(.str (pyStr "signal".toList), .bool true)])
  sanctionsResult := none
  temporalResult := none
  transactionResult := none
  ragContext := none
  isDemo := some (.bool isDemo)
  decision := some (.str (pyStr "APPROVE".toList))
  confidence := some confidence
  rationaleChain := none
  auditId := none

/-- `{"document":{"signal":true}}` as a value. -/
def outputs : PyVal WholeFloat :=
  .dict [(.str (pyStr "document".toList), .dict [(.str (pyStr "signal".toList), .bool true)])]

/-- A record of the first decision with its payload marked as uploaded. -/
def recordWith (agentOutputsHash signedHash : Text) : AuditRecord where
  id := uuid 4
  decisionId := uuid 1
  applicationId := uuid 2
  guidelineVersionId := uuid 3
  affectedAgentTags := allAgentTags
  agentOutputsHash := agentOutputsHash
  recordHmac := crypto.hmac serverKey (message signedHash (uuid 1).str)
  payloadS3Key := some (pyStr "k".toList)
  payloadS3Uploaded := true
  writtenAt := now
  breachFlag := false
  breachFlaggedAt := none
  isDemo := false

def record : AuditRecord := recordWith hash hash

/-- A store with one object. -/
def verifyEnv (object : Bytes) : VerifyEnv := ⟨keys, fun _ => .ok object, now⟩

end Sample

/-- A confidence of `None` makes a committed write raise. -/
theorem committed_write_raises :
    ¬ (returned (writeNode Sample.crypto (Sample.env .done) Sample.dbs (Sample.state false .none)).result = false ↔
      ¬ Committed Sample.dbs
        (writeNode Sample.crypto (Sample.env .done) Sample.dbs (Sample.state false .none)).dbs) := by
  decide +kernel

/-! ## Demo isolation -/

/-- The uploads that were scheduled, run one after another. -/
def runUploads (C : Crypto) (keys : Keys) (nonce : Nonce) (faults : UploadFaults) :
    List (UploadArgs D) → World → World
  | [], w => w
  | a :: as, w => runUploads C keys nonce faults as (uploadAuditPayload C keys nonce faults a w).2

/-- The queries of `verify_by_decision_id` find the record with this id. -/
def FindsRecord (db : Database) (decisionId : PyStr) (recordId : Uuid) : Prop :=
  ∃ u r, uuidOf decisionId = .ok u ∧ scalarOneOrNone (db.auditRecordsOf u) = .ok (some r) ∧ r.id = recordId

/-- The databases after a run of `write_node` and of the uploads it schedules. -/
def afterRun (C : Crypto) (env : WriteEnv D) (nonce : Nonce) (faults : UploadFaults) (w : World) (s : PipelineState D) :
    Databases :=
  (runUploads C env.keys nonce faults (writeNode C env w.dbs s).scheduled
    ⟨(writeNode C env w.dbs s).dbs, w.objects⟩).dbs

/-- A run keeps to the database that the flag names: a demo run leaves production as it was and its record is found in
the demo database, any other run leaves the demo database as it was. -/
def DemoIsolated (C : Crypto) (env : WriteEnv D) (nonce : Nonce) (faults : UploadFaults) (w : World)
    (s : PipelineState D) : Prop :=
  if s.demoFlag.truthy = true then
    (afterRun C env nonce faults w s).production = w.dbs.production ∧
      ∀ d, requiredStr env.repr "decision_id".toList s.decisionId = .ok d →
        returned (writeNode C env w.dbs s).result = true →
          FindsRecord ((afterRun C env nonce faults w s).getSessionContext true) d env.recordId
  else (afterRun C env nonce faults w s).demo = w.dbs.demo

theorem demo_runUploads (keys : Keys) (nonce : Nonce) (faults : UploadFaults) (as : List (UploadArgs D)) (w : World) :
    (runUploads C keys nonce faults as w).dbs.demo = w.dbs.demo := by
  induction as generalizing w with
  | nil => rfl
  | cons a as ih => rw [runUploads, ih, demo_uploadAuditPayload]

theorem length_production_runUploads (keys : Keys) (nonce : Nonce) (faults : UploadFaults) (as : List (UploadArgs D))
    (w : World) : (runUploads C keys nonce faults as w).dbs.production.auditRecords.length =
      w.dbs.production.auditRecords.length := by
  induction as generalizing w with
  | nil => rfl
  | cons a as ih => rw [runUploads, ih, length_production_uploadAuditPayload]

/-- **The databases are kept apart exactly for a run that is no demo run or that does not commit.** -/
theorem demoIsolated_iff (env : WriteEnv D) (nonce : Nonce) (faults : UploadFaults) (w : World) (s : PipelineState D) :
    DemoIsolated C env nonce faults w s ↔ s.demoFlag.truthy = false ∨ ¬ Commits env w.dbs s := by
  by_cases hc : Commits env w.dbs s
  · obtain ⟨i, hd, -⟩ := writeNode_of_commits (C := C) hc
    cases ht : s.demoFlag.truthy with
    | false =>
      simp only [DemoIsolated, ht, Bool.false_eq_true, if_false, true_or, iff_true]
      rw [afterRun, demo_runUploads, hd]
      rfl
    | true =>
      simp only [DemoIsolated, ht, if_true, Bool.true_eq_false, hc, not_true_eq_false, or_self, iff_false, not_and]
      intro hp
      have hl := length_production_runUploads (C := C) env.keys nonce faults (writeNode C env w.dbs s).scheduled
        ⟨(writeNode C env w.dbs s).dbs, w.objects⟩
      rw [← afterRun, hp, hd] at hl
      simp [Databases.withRecord] at hl
  · obtain ⟨hr, hd, hs⟩ := writeNode_of_not_commits (C := C) hc
    simp only [DemoIsolated, afterRun, hd, hs, runUploads, hr, hc, not_false_eq_true, or_true, iff_true]
    split
    · exact ⟨trivial, fun _ _ h => by cases h⟩
    · trivial

/-- A demo run whose ids exist in production writes its record there. -/
theorem demo_write_changes_production :
    ¬ DemoIsolated Sample.crypto (Sample.env .done) Sample.nonce ⟨.done, .done⟩ ⟨Sample.dbs, []⟩
      (Sample.state true (.int 1)) := by
  intro h
  have ht : (Sample.state true (.int 1)).demoFlag.truthy = true := rfl
  rw [DemoIsolated, if_pos ht] at h
  exact absurd h.1 (by decide +kernel)

end ComplianceLoop
