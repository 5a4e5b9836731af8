import Mathlib.Logic.Relation
import ComplianceLoop.Audit.Reports
import ComplianceLoop.Audit.WriteNode

/-!
# Edited tables

Runs of the audit node and the uploader, between which anybody may replace the tables and the objects. Who edits does
not know the keys: an HMAC that is put into a row verifies no message but those that the records written so far were
signed with. A log keeps the records as they were written, with the outcome that their decisions had.

In every reachable state a valid report shows the ids, the instant and the hash of a record as it was written; its
outcome and its application are those of the columns as they now are (`validReport_signed`), which are not part of the
signed message (`edited_outcome_reported`).
-/

set_option autoImplicit false

namespace ComplianceLoop

open PyLib

/-- A record as the audit node wrote it, and the outcome that its decision had. -/
structure Written where
  record : AuditRecord
  outcome : Option DecisionOutcome
  deriving DecidableEq

/-- The world and the records that were written to it. -/
structure Audited where
  world : World
  log : List Written

/-- The records that a write has added. -/
def writtenBy (before after : Databases) : List Written :=
  (after.production.auditRecords.drop before.production.auditRecords.length).map fun r =>
    ⟨r, (before.production.decisionsOf r.decisionId).head?.map Decision.outcome⟩

/-- The HMAC verifies no message but those of the records written so far. -/
def Unforged (C : Crypto) (keys : Keys) (log : List Written) (hmac : Text) : Prop :=
  ∀ m, HmacMatches C keys hmac m → ∃ e ∈ log, HmacMatches C keys e.record.recordHmac m

section

variable (D : Type) [FloatOps D] (C : Crypto) (keys : Keys)

/-- A run of the audit node, a run of an upload, or an edit of the tables and the objects. -/
inductive Step : Audited → Audited → Prop
  | write (a : Audited) (env : WriteEnv D) (s : PipelineState D) (hk : env.keys = keys) :
      Step a ⟨{ a.world with dbs := (writeNode C env a.world.dbs s).dbs },
        a.log ++ writtenBy a.world.dbs (writeNode C env a.world.dbs s).dbs⟩
  | upload (a : Audited) (nonce : Nonce) (faults : UploadFaults) (args : UploadArgs D) :
      Step a ⟨(uploadAuditPayload C keys nonce faults args a.world).2, a.log⟩
  | edit (a : Audited) (w : World) (hu : ∀ r ∈ w.dbs.auditRows, Unforged C keys a.log r.recordHmac) : Step a ⟨w, a.log⟩

/-- Nothing was written yet, and no stored HMAC verifies anything. -/
structure Fresh (a : Audited) : Prop where
  log : a.log = []
  rows : ∀ r ∈ a.world.dbs.auditRows, ∀ m, ¬ HmacMatches C keys r.recordHmac m

/-- The states of a run that starts before the first write. -/
def Reachable (a : Audited) : Prop := ∃ a₀, Fresh C keys a₀ ∧ Relation.ReflTransGen (Step D C keys) a₀ a

/-- The record was built by the audit node under these keys. -/
def BuiltByNode (r : AuditRecord) : Prop :=
  ∃ (env : WriteEnv D) (s : PipelineState D) (i : Inputs env s) (dbs : Databases),
    env.keys = keys ∧ r = (i.prepared C dbs).record

/-- The invariant of the runs. -/
structure Signed (a : Audited) : Prop where
  rows : ∀ r ∈ a.world.dbs.auditRows, Unforged C keys a.log r.recordHmac
  log : ∀ e ∈ a.log, BuiltByNode D C keys e.record

end

/-! ## The invariant -/

variable {D : Type} [FloatOps D] {C : Crypto} {keys : Keys}

theorem Unforged.mono {log log' : List Written} (hs : log ⊆ log') {hmac : Text} (h : Unforged C keys log hmac) :
    Unforged C keys log' hmac := fun m hm => by
  obtain ⟨e, he, hem⟩ := h m hm
  exact ⟨e, hs he, hem⟩

theorem mem_auditRows_withRecord {dbs : Databases} {r x : AuditRecord} (h : x ∈ (dbs.withRecord r).auditRows) :
    x ∈ dbs.auditRows ∨ x = r := by
  simp only [Databases.auditRows, Databases.withRecord, List.mem_append, List.mem_singleton] at h ⊢
  tauto

/-- Marking keeps the HMACs. -/
theorem mem_auditRows_marked {dbs : Databases} {u : Uuid} {k : PyStr} {x : AuditRecord}
    (h : x ∈ (dbs.marked u k).auditRows) : ∃ y ∈ dbs.auditRows, y.recordHmac = x.recordHmac := by
  rcases List.mem_append.mp h with h | h
  · obtain ⟨y, hy, rfl⟩ := List.mem_map.mp h
    refine ⟨y, List.mem_append_left _ hy, ?_⟩
    split <;> rfl
  · exact ⟨x, List.mem_append_right _ h, rfl⟩

theorem writtenBy_withRecord (dbs : Databases) (r : AuditRecord) : writtenBy dbs (dbs.withRecord r) =
    [⟨r, (dbs.production.decisionsOf r.decisionId).head?.map Decision.outcome⟩] := by
  simp [writtenBy, Databases.withRecord]

theorem writtenBy_self (dbs : Databases) : writtenBy dbs dbs = [] := by simp [writtenBy]

/-- Each step keeps the invariant. -/
theorem Signed.step {a b : Audited} (h : Signed D C keys a) (hs : Step D C keys a b) : Signed D C keys b := by
  cases hs with
  | write env s hk =>
    by_cases hc : Commits env a.world.dbs s
    · obtain ⟨i, hd, -⟩ := writeNode_of_commits (C := C) hc
      rw [hd, writtenBy_withRecord]
      refine ⟨fun r hr => ?_, fun e he => ?_⟩
      · rcases mem_auditRows_withRecord hr with hr | rfl
        · exact (h.rows r hr).mono (List.subset_append_left _ _)
        · exact fun m hm => ⟨_, List.mem_append_right _ (List.mem_singleton_self _), hm⟩
      · rcases List.mem_append.mp he with he | he
        · exact h.log e he
        · rw [List.mem_singleton.mp he]
          exact ⟨env, s, i, a.world.dbs, hk, rfl⟩
    · rw [(writeNode_of_not_commits hc).2.1, writtenBy_self, List.append_nil]
      exact h
  | upload nonce faults args =>
    refine ⟨fun r hr => ?_, h.log⟩
    rcases uploadAuditPayload_dbs C keys nonce faults args a.world with hd | ⟨u, hd⟩
    · exact h.rows r (hd ▸ hr)
    · obtain ⟨y, hy, he⟩ := mem_auditRows_marked (hd ▸ hr)
      exact he ▸ h.rows y hy
  | edit w hu => exact ⟨hu, h.log⟩

theorem Fresh.signed {a : Audited} (h : Fresh C keys a) : Signed D C keys a :=
  ⟨fun r hr m hm => absurd hm (h.rows r hr m), fun e he => by rw [h.log] at he; cases he⟩

/-- **Every reachable state keeps the invariant.** -/
theorem Reachable.signed {a : Audited} (h : Reachable D C keys a) : Signed D C keys a := by
  obtain ⟨a₀, hf, hrun⟩ := h
  induction hrun with
  | refl => exact hf.signed
  | tail _ hs ih => exact ih.step hs

/-! ## Valid reports -/

/-- The HMAC of an intact record is that of its hash, as it is stored or in lower case. -/
theorem Intact.accepts {env : VerifyEnv} {r : AuditRecord} (h : Intact D C env r) :
    ∃ t, lower t = lower r.agentOutputsHash ∧ HmacAccepts C env.keys r t := by
  unfold Intact at h
  split at h
  · obtain ⟨o, b, -, -, -, hs, ha⟩ := h
    exact ⟨_, by rw [← hs, Crypto.lower_sha256], ha⟩
  · exact ⟨_, rfl, h⟩

theorem BuiltByNode.lower_hash {e : AuditRecord} (he : BuiltByNode D C keys e) :
    lower e.agentOutputsHash = e.agentOutputsHash := by
  obtain ⟨env, s, i, dbs, rfl, rfl⟩ := he
  exact Crypto.lower_sha256 _

/-- A message that the HMAC of a built record verifies has the fields of the record. -/
theorem BuiltByNode.fields (hb : C.HmacBinding) {e r : AuditRecord} (he : BuiltByNode D C keys e) {t written : Text}
    (hw : serialiseWrittenAt r.writtenAt = .ok written)
    (hm : HmacMatches C keys e.recordHmac (utf8 (hmacText t r.decisionId.str r.guidelineVersionId.str written))) :
    t = e.agentOutputsHash ∧ r.decisionId = e.decisionId ∧ r.guidelineVersionId = e.guidelineVersionId ∧
      r.writtenAt.instant = e.writtenAt.instant := by
  obtain ⟨env, s, i, dbs, rfl, rfl⟩ := he
  have hself : HmacMatches C env.keys (i.prepared C dbs).record.recordHmac (i.message C) :=
    ⟨i.key, i.key_eq, .inl (Crypto.lower_hmac _ _)⟩
  have hnow := serialiseWrittenAt_utc env.now_utc
  obtain ⟨ht, hd, hg, hwe⟩ := hm.fields_unique hb (Uuid.pipe_notMem_str _) (Uuid.pipe_notMem_of_parse i.decision_parse)
    (Uuid.pipe_notMem_str _) (Uuid.pipe_notMem_of_parse i.guideline_parse) (pipe_notMem_serialiseWrittenAt hw)
    (pipe_notMem_serialiseWrittenAt hnow) hself
  refine ⟨ht, ?_, ?_, serialiseWrittenAt_inj hw (hwe ▸ hnow)⟩
  · exact Option.some.inj ((hd ▸ Uuid.parse_str r.decisionId).symm.trans i.decision_parse)
  · exact Option.some.inj ((hg ▸ Uuid.parse_str r.guidelineVersionId).symm.trans i.guideline_parse)

/-- **A valid report shows the ids, the instant and the hash of a record as the audit node wrote it, and the outcome and
the application of the rows as they now are.** -/
theorem validReport_signed (hb : C.HmacBinding) {a : Audited} (ha : Reachable D C keys a) {env : VerifyEnv}
    (hk : env.keys = keys) {isDemo : Bool} {d : PyStr} {v : VerificationResult}
    (hv : verifyByDecisionId D C env (a.world.dbs.getSessionContext isDemo) d = .ok v) (hvalid : v.isValid = true) :
    (∃ e ∈ a.log, uuidOf d = .ok e.record.decisionId ∧ v.guidelineVersionId = e.record.guidelineVersionId.str ∧
        lower v.agentOutputsHash = e.record.agentOutputsHash ∧
        ∃ w : DateTime, v.writtenAt = w.isoformat ∧ w.instant = e.record.writtenAt.instant) ∧
      ∃ r ∈ (a.world.dbs.getSessionContext isDemo).auditRecords, uuidOf d = .ok r.decisionId ∧
        v.applicationId = r.applicationId.str ∧ ∃ decision,
          scalarOneOrNone ((a.world.dbs.getSessionContext isDemo).decisionsOf r.decisionId) = .ok decision ∧
            v.outcome = decision.elim "UNKNOWN".toList fun x => x.outcome.value := by
  subst hk
  obtain ⟨u, r, decision, c, hu, hr, hd, hc, rfl⟩ := verifyByDecisionId_eq_ok hv
  obtain ⟨hmem, rfl⟩ := mem_auditRecordsOf hr
  refine ⟨?_, r, hmem, hu, rfl, decision, hd, rfl⟩
  rw [isValid_reportOf] at hvalid
  obtain ⟨t, hl, written, hw, hm⟩ := ((isValid_iff hc).mp hvalid).accepts
  have hrow : r ∈ a.world.dbs.auditRows := by
    cases isDemo
    · exact List.mem_append_left _ hmem
    · exact List.mem_append_right _ hmem
  obtain ⟨e, he, hem⟩ := ha.signed.rows r hrow _ hm
  obtain ⟨rfl, hde, hge, hwe⟩ := (ha.signed.log e he).fields hb hw hem
  refine ⟨e, he, by rw [hu, hde], ?_, ?_, r.writtenAt, rfl, hwe⟩
  · rw [← hge]
    rfl
  · rw [← (ha.signed.log e he).lower_hash, hl]
    rfl

namespace Sample

def world : World := ⟨dbs, []⟩

/-- An installation that has written the record of its one decision. -/
def written : Audited :=
  ⟨{ world with dbs := (writeNode Sample.crypto (env .done) world.dbs (state false (.int 1))).dbs },
    [] ++ writtenBy world.dbs (writeNode Sample.crypto (env .done) world.dbs (state false (.int 1))).dbs⟩

/-- A world whose production decisions are replaced. -/
def withDecisions (w : World) (ds : List Decision) : World :=
  { w with dbs := { w.dbs with production := { w.dbs.production with decisions := ds } } }

theorem auditRows_withDecisions (w : World) (ds : List Decision) :
    (withDecisions w ds).dbs.auditRows = w.dbs.auditRows := rfl

/-- The same with the outcome of the decision edited. -/
def edited : Audited := ⟨withDecisions written.world [⟨uuid 1, .reject⟩], written.log⟩

theorem reachable_written : Reachable WholeFloat Sample.crypto Sample.keys written :=
  ⟨⟨world, []⟩, ⟨rfl, fun r hr => absurd hr (by simp [world, dbs, Databases.auditRows])⟩,
    .single (.write ⟨world, []⟩ (env .done) (state false (.int 1)) rfl)⟩

theorem reachable_edited : Reachable WholeFloat Sample.crypto Sample.keys edited := by
  have hrows := reachable_written.signed.rows
  rw [← auditRows_withDecisions _ [⟨uuid 1, .reject⟩]] at hrows
  obtain ⟨a₀, hf, hrun⟩ := reachable_written
  exact ⟨a₀, hf, hrun.tail (.edit written _ hrows)⟩

end Sample

/-- The report on the written record is valid and shows what was written. -/
theorem validReport_signed_written : ∃ v,
    verifyByDecisionId WholeFloat Sample.crypto (Sample.verifyEnv []) (Sample.written.world.dbs.getSessionContext false)
        (pyStr (Sample.uuid 1).str) = .ok v ∧
      ∃ e ∈ Sample.written.log, v.guidelineVersionId = e.record.guidelineVersionId.str ∧
        lower v.agentOutputsHash = e.record.agentOutputsHash := by
  have hvalid : (verifyByDecisionId WholeFloat Sample.crypto (Sample.verifyEnv [])
      (Sample.written.world.dbs.getSessionContext false) (pyStr (Sample.uuid 1).str)).map (·.isValid) = .ok true := by
    decide +kernel
  obtain ⟨v, hv, hval⟩ := map_eq_ok.mp hvalid
  obtain ⟨⟨e, he, -, hg, hh, -⟩, -⟩ := validReport_signed Sample.crypto_hmacBinding Sample.reachable_written rfl hv hval
  exact ⟨v, hv, e, he, hg, hh⟩

/-- A valid report after an edit shows the edited outcome. -/
theorem edited_outcome_reported :
    ¬ ∀ (keys : Keys) (a : Audited), Reachable WholeFloat Sample.crypto keys a → ∀ (env : VerifyEnv), env.keys = keys →
      ∀ (isDemo : Bool) (d : PyStr) (v : VerificationResult),
        verifyByDecisionId WholeFloat Sample.crypto env (a.world.dbs.getSessionContext isDemo) d = .ok v →
        v.isValid = true →
        ∃ e ∈ a.log, uuidOf d = .ok e.record.decisionId ∧ v.applicationId = e.record.applicationId.str ∧
          v.outcome = e.outcome.elim "UNKNOWN".toList DecisionOutcome.value := by
  intro h
  have hv : (verifyByDecisionId WholeFloat Sample.crypto (Sample.verifyEnv [])
      (Sample.edited.world.dbs.getSessionContext false) (pyStr (Sample.uuid 1).str)).map
        (fun v => (v.isValid, v.outcome)) = .ok (true, "REJECT".toList) := by decide +kernel
  have hlog : ∀ e ∈ Sample.edited.log, e.outcome = some .approve := by decide +kernel
  obtain ⟨v, hv, hfields⟩ := map_eq_ok.mp hv
  obtain ⟨hvalid, hout⟩ := Prod.mk.inj hfields
  obtain ⟨e, he, -, -, ho⟩ := h _ _ Sample.reachable_edited (Sample.verifyEnv []) rfl false _ v hv hvalid
  rw [hlog e he, hout] at ho
  exact absurd ho (by decide +kernel)

end ComplianceLoop
