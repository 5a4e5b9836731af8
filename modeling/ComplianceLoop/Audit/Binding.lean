import ComplianceLoop.Audit.WriteNode

/-!
# What a signature binds

The signed message is the hash, the two ids and the time, separated by pipes. A record that verifies was signed with
the same outputs, ids and instant (`binding`). The writer signs the texts of the ids as they stand in the state, the
verifier those of the stored UUIDs; so a written row passes the HMAC-only check exactly when the state gave both ids in
the form of `str(uuid)`, whatever the session time zone is that the time is read back in (`stored_row_verifies_iff`).
-/

set_option autoImplicit false

namespace ComplianceLoop

open PyLib

variable {D : Type} [FloatOps D] {C : Crypto}

/-! ## Binding -/

/-- A record that verifies without a previous key has the HMAC under the current one. -/
theorem hmac_of_verifyRecordHmac {keys : Keys} (hp : keys.previous = none) {stored h w : Text} {d g : PyStr} {m : Bytes}
    (hm : buildHmacMessage h d g w = .ok m) (hv : verifyRecordHmac C keys stored h d g w = .ok true) :
    ∃ key, keys.server = .ok key ∧ lower stored = C.hmac key m := by
  obtain ⟨key, hk, hl | ⟨p, hpr, -⟩⟩ := (verifyRecordHmac_eq_true_iff hm).mp hv
  · exact ⟨key, hk, hl⟩
  · rw [hp] at hpr
    cases hpr

/-- **The hash and the HMAC of a record verify only for the outputs, the ids and the instant they were made of.** -/
theorem binding (hsha : C.ShaInjective) (hhmac : C.HmacInjective) {keys : Keys} (hp : keys.previous = none)
    {o o' : PyVal D} {d d' g g' : PyStr} {w w' : DateTime} {du du' gu gu' : Uuid} (hd : uuidOf d = .ok du)
    (hd' : uuidOf d' = .ok du') (hg : uuidOf g = .ok gu) (hg' : uuidOf g' = .ok gu') {hash hmac reason : Text}
    (hh : computeAgentOutputsHash C o' = .ok hash) (hm : computeAuditHmac C keys hash d' g' w' = .ok hmac)
    (hv : verifyAuditRecordIntegrity C keys hash hmac o d g w = .ok (true, reason)) :
    canonicalJson o = canonicalJson o' ∧ d = d' ∧ g = g' ∧ w.instant = w'.instant := by
  obtain ⟨dt, rfl, hdt⟩ := uuidOf_eq_ok.mp hd
  obtain ⟨dt', rfl, hdt'⟩ := uuidOf_eq_ok.mp hd'
  obtain ⟨gt, rfl, hgt⟩ := uuidOf_eq_ok.mp hg
  obtain ⟨gt', rfl, hgt'⟩ := uuidOf_eq_ok.mp hg'
  obtain ⟨-, b', hb', rfl⟩ := hashAgentOutputs_eq_ok.mp hh
  obtain ⟨key, written', message, hk, hw', hmsg, rfl⟩ := computeAuditHmac_eq_ok hm
  obtain ⟨-, -, b, written, hb, hs, hw, hvr⟩ := verifyAuditRecordIntegrity_eq_valid_iff.mp hv
  rw [buildHmacMessage_pyStr, Except.ok.injEq] at hmsg
  rw [Crypto.lower_sha256] at hs
  -- the two messages have one HMAC under the current key
  obtain ⟨key', hk', hl⟩ := hmac_of_verifyRecordHmac hp (buildHmacMessage_pyStr _ _ _ _) hvr
  rw [Crypto.lower_hmac] at hl
  cases hk.symm.trans hk'
  have htext := utf8_injective (hmsg.trans (hhmac key hl))
  obtain ⟨-, hde, hge, hwe⟩ := hmacText_inj (Uuid.pipe_notMem_of_parse hdt') (Uuid.pipe_notMem_of_parse hdt)
    (Uuid.pipe_notMem_of_parse hgt') (Uuid.pipe_notMem_of_parse hgt) (pipe_notMem_serialiseWrittenAt hw')
    (pipe_notMem_serialiseWrittenAt hw) htext
  refine ⟨?_, by rw [hde], by rw [hge], serialiseWrittenAt_inj hw (hwe ▸ hw')⟩
  rw [hb, hb', hsha hs]

/-- The outputs with an enumeration member for the signal. -/
def Sample.enumOutputs : PyVal WholeFloat :=
  .dict [(.str (pyStr "document".toList), .dict [(.str (pyStr "signal".toList), .enum (.bool true))])]

/-- What was signed with an enumeration member verifies for its value, at the same instant in another zone. -/
theorem binding_sample :
    canonicalJson Sample.outputs = canonicalJson Sample.enumOutputs ∧
      pyStr (Sample.uuid 1).str = pyStr (Sample.uuid 1).str ∧ pyStr (Sample.uuid 3).str = pyStr (Sample.uuid 3).str ∧
        Sample.nowInKolkata.instant = Sample.now.instant :=
  binding Sample.crypto_shaInjective (Crypto.HmacBinding.injective Sample.crypto_hmacBinding) rfl (uuidOf_str _)
    (uuidOf_str _) (uuidOf_str _) (uuidOf_str _)
    (by decide +kernel : computeAgentOutputsHash Sample.crypto Sample.enumOutputs = .ok Sample.hash)
    (by decide +kernel : computeAuditHmac Sample.crypto Sample.keys Sample.hash (pyStr (Sample.uuid 1).str)
      (pyStr (Sample.uuid 3).str) Sample.now = .ok Sample.record.recordHmac)
    (by decide +kernel : verifyAuditRecordIntegrity Sample.crypto Sample.keys Sample.hash Sample.record.recordHmac
      Sample.outputs (pyStr (Sample.uuid 1).str) (pyStr (Sample.uuid 3).str) Sample.nowInKolkata = .ok (true, []))

/-! ## A written row -/

theorem Databases.withRecord_injective {dbs : Databases} {r r' : AuditRecord}
    (h : dbs.withRecord r = dbs.withRecord r') : r = r' := by
  have hrows := congrArg (fun x : Databases => x.production.auditRecords) h
  simpa [Databases.withRecord] using hrows

theorem Databases.withRecord_ne {dbs : Databases} {r : AuditRecord} : dbs ≠ dbs.withRecord r := by
  intro h
  have hrows := congrArg (fun x : Databases => x.production.auditRecords.length) h
  simp [Databases.withRecord] at hrows

/-- A row that was stored was built from its inputs. -/
theorem stored_row {env : WriteEnv D} {dbs : Databases} {s : PipelineState D} {r : AuditRecord}
    (h : (writeAuditRecord C env dbs s).dbs = dbs.withRecord r) :
    ∃ i : Inputs env s, r = (i.prepared C dbs).record := by
  have hdbs : (writeAuditRecord C env dbs s).dbs = dbs ∨ _ := writeAuditRecord_dbs
  rcases hdbs with hd | ⟨i, hd⟩
  · exact absurd (hd.symm.trans h) Databases.withRecord_ne
  · exact ⟨i, Databases.withRecord_injective (h.symm.trans hd)⟩

/-- The state gives the id as `str` of a UUID. -/
def CanonicalId (repr : PyVal D → PyStr) (key : Text) (v : Option (PyVal D)) : Prop :=
  ∃ u : Uuid, requiredStr repr key v = .ok (pyStr u.str)

/-- An id that parses is in the form of `str(uuid)` exactly when it is that of the UUID it parses to. -/
theorem canonicalId_iff {repr : PyVal D → PyStr} {key : Text} {v : Option (PyVal D)} {t : Text} {u : Uuid}
    (ht : requiredStr repr key v = .ok (pyStr t)) (hu : Uuid.parse t = some u) :
    CanonicalId repr key v ↔ t = u.str := by
  constructor
  · rintro ⟨u', h⟩
    have he : t = u'.str := pyStr_injective (Except.ok.inj (ht.symm.trans h))
    rw [he, Uuid.parse_str, Option.some.injEq] at hu
    rw [he, hu]
  · intro he
    exact ⟨u, by rw [ht, he]⟩

/-- **A stored row, its time read back in any time zone, passes the HMAC-only check exactly when the state gave both ids
in the form of `str(uuid)`.** -/
theorem stored_row_verifies_iff (hb : C.HmacBinding) {env : WriteEnv D} {dbs : Databases} {s : PipelineState D}
    {r : AuditRecord} (h : (writeAuditRecord C env dbs s).dbs = dbs.withRecord r) {w : DateTime}
    (hw : w.instant = env.now.instant) :
    runHmacOnlyVerification C env.keys { r with writtenAt := w } = .ok (true, [], false, true) ↔
      CanonicalId env.repr "decision_id".toList s.decisionId ∧
        CanonicalId env.repr "guideline_version_id".toList s.guidelineVersionId := by
  obtain ⟨i, rfl⟩ := stored_row h
  have hwritten : serialiseWrittenAt w = .ok env.now.isoformat := by
    rw [serialiseWrittenAt_congr hw, serialiseWrittenAt_utc env.now_utc]
  have hpipe := pipe_notMem_serialiseWrittenAt hwritten
  have hself : HmacMatches C env.keys (i.prepared C dbs).record.recordHmac (i.message C) :=
    ⟨i.key, i.key_eq, .inl (Crypto.lower_hmac _ _)⟩
  rw [runHmacOnly_valid_iff, canonicalId_iff i.decision_eq i.decision_parse,
    canonicalId_iff i.guideline_eq i.guideline_parse]
  constructor
  · rintro ⟨written, hw', hm⟩
    cases hwritten.symm.trans hw'
    obtain ⟨-, hd, hg, -⟩ := hself.fields_unique hb (Uuid.pipe_notMem_of_parse i.decision_parse)
      (Uuid.pipe_notMem_str _) (Uuid.pipe_notMem_of_parse i.guideline_parse) (Uuid.pipe_notMem_str _) hpipe hpipe hm
    exact ⟨hd, hg⟩
  · rintro ⟨hd, hg⟩
    refine ⟨_, hwritten, ?_⟩
    rw [Inputs.message, hd, hg] at hself
    exact hself

namespace Sample

/-- The production record that a write leaves. -/
def stored (s : PipelineState WholeFloat) : AuditRecord :=
  ((writeAuditRecord Sample.crypto (env .done) dbs s).dbs.production.auditRecords.getLast?).getD (recordWith hash [])

/-- The state whose ids are UUID objects. -/
def plainState : PipelineState WholeFloat := state false (.int 1)

/-- The state with the decision id in braces. -/
def bracedState : PipelineState WholeFloat :=
  { plainState with decisionId := some (.str (pyStr bracedId)) }

end Sample

/-- The row for ids that are UUID objects, its time read back in another zone. -/
theorem stored_row_verifies_iff_sample :
    runHmacOnlyVerification Sample.crypto Sample.keys
        { Sample.stored Sample.plainState with writtenAt := Sample.nowInKolkata } = .ok (true, [], false, true) ↔
      CanonicalId (Sample.env .done).repr "decision_id".toList Sample.plainState.decisionId ∧
        CanonicalId (Sample.env .done).repr "guideline_version_id".toList Sample.plainState.guidelineVersionId :=
  stored_row_verifies_iff Sample.crypto_hmacBinding
    (by decide +kernel : (writeAuditRecord Sample.crypto (Sample.env .done) Sample.dbs Sample.plainState).dbs =
      Sample.dbs.withRecord (Sample.stored Sample.plainState))
    (by decide +kernel)

/-- The row for a decision id in braces does not pass. -/
theorem braced_id_row_fails :
    ¬ ∀ (env : WriteEnv WholeFloat) (dbs : Databases) (s : PipelineState WholeFloat) (r : AuditRecord) (w : DateTime),
      (writeAuditRecord Sample.crypto env dbs s).dbs = dbs.withRecord r → w.instant = env.now.instant →
      runHmacOnlyVerification Sample.crypto env.keys { r with writtenAt := w } = .ok (true, [], false, true) := by
  intro h
  have hrow : (writeAuditRecord Sample.crypto (Sample.env .done) Sample.dbs Sample.bracedState).dbs =
      Sample.dbs.withRecord (Sample.stored Sample.bracedState) := by decide +kernel
  exact absurd (h _ _ _ _ Sample.now hrow rfl) (by decide +kernel)

end ComplianceLoop
