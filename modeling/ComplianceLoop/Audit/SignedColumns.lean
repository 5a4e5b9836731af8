import Mathlib.Data.List.Forall2
import ComplianceLoop.Audit.Writer
import ComplianceLoop.Db.DemoRows
import ComplianceLoop.Dpdp.ConsentWithdrawal
import ComplianceLoop.Dpdp.DataSubjectHandler
import ComplianceLoop.Dpdp.RetentionEnforcer

/-!
# The signed columns are never rewritten

Audit writes, uploads, marks, the breach procedures, wipes, erasure requests and consent withdrawals in any order. Every
operation leaves the records in place with their signed columns and adds at most one record at the end
(`signed_step`); so a run does the same (`signed_run`), and the HMAC-only verification of a record never changes
(`signed_columns_kept`).
-/

set_option autoImplicit false

namespace ComplianceLoop

open PyLib

/-- The key and the columns that the HMAC signs or is. -/
def AuditRecord.signed (r : AuditRecord) : Uuid × Uuid × Uuid × Text × Text × DateTime :=
  (r.id, r.decisionId, r.guidelineVersionId, r.agentOutputsHash, r.recordHmac, r.writtenAt)

/-- The tables of the production database, the demo database, and the bucket. -/
structure AuditStore (D : Type) where
  production : ProductionTables D
  demo : Database
  objects : List (PyStr × Bytes)

/-- The operations, with what each depends on. -/
inductive AuditStep (D : Type) where
  /-- `_write_audit_record`. -/
  | write (env : WriteEnv D) (state : PipelineState D)
  /-- `upload_audit_payload`. -/
  | upload (keys : Keys) (nonce : Nonce) (faults : UploadFaults) (args : UploadArgs D)
  /-- `_mark_uploaded`, as the end of an upload that other operations have got into. -/
  | mark (attempt : Attempt) (decisionId s3Key : PyStr)
  /-- `break_glass`. -/
  | breakGlass (call : BreachCall) (applicationId : Uuid)
  /-- `break_glass_range`. -/
  | breakGlassRange (call : BreachCall) (start stop : DateTime)
  /-- A batch of the retention task. -/
  | wipeBatch (task : WipeTask) (k : Nat)
  /-- `handle_erasure_request`. -/
  | erase (req : ErasureRequest)
  /-- `handle_consent_withdrawal`. -/
  | withdraw (req : WithdrawalRequest)

namespace AuditStore

section

variable {D : Type} (s : AuditStore D)

/-- The databases and the bucket as the audit code sees them. -/
def world : World := ⟨⟨s.production.database, s.demo⟩, s.objects⟩

/-- The signed columns of the production and the demo database. -/
def signed (isDemo : Bool) : List (Uuid × Uuid × Uuid × Text × Text × DateTime) :=
  (s.world.dbs.getSessionContext isDemo).auditRecords.map AuditRecord.signed

/-- After an operation of the audit code: of the production tables it writes the audit records only. -/
def withWorld (w : World) : AuditStore D where
  production := { s.production with auditRecords := w.dbs.production.auditRecords }
  demo := w.dbs.demo
  objects := w.objects

/-- After an operation on the applications and the retention events. -/
def withRetention (db : RetentionDb) : AuditStore D :=
  { s with production := { s.production with applications := db.applications, retentionEvents := db.events } }

/-- After a procedure: its transaction is committed, or undone when it has raised. -/
def afterProcedure {α : Type} : Except PyExc (α × BreachDb) → AuditStore D
  | .error _ => s
  | .ok (_, db) =>
    { s with production := { s.production with auditRecords := db.database.auditRecords, outbox := db.outbox } }

end

variable {D : Type} [FloatOps D] (C : Crypto)

/-- One operation. -/
def step (s : AuditStore D) : AuditStep D → AuditStore D
  | .write env state => s.withWorld { s.world with dbs := (writeAuditRecord C env s.world.dbs state).dbs }
  | .upload keys nonce faults args => s.withWorld (uploadAuditPayload C keys nonce faults args s.world).2
  | .mark attempt decisionId s3Key =>
    s.withWorld { s.world with dbs := (markUploaded attempt decisionId s3Key s.world.dbs).2 }
  | .breakGlass call applicationId =>
    s.afterProcedure (ComplianceLoop.breakGlass call applicationId s.production.breach)
  | .breakGlassRange call start stop =>
    s.afterProcedure (ComplianceLoop.breakGlassRange call start stop s.production.breach)
  | .wipeBatch task k => s.withRetention (task.wipeBatch k s.production.retention).db
  | .erase req => s.withRetention (handleErasureRequest req s.production.retention).2
  | .withdraw req =>
    s.withRetention
      { s.production.retention with applications := (handleConsentWithdrawal req s.production.applications).2 }

/-- The operations one after the other. -/
def run (s : AuditStore D) (ls : List (AuditStep D)) : AuditStore D := ls.foldl (step C) s

end AuditStore

/-! ## The operations on the audit records -/

section

theorem signed_flagRecords (now : DateTime) (apps : List Uuid) (rows : List AuditRecord) :
    (flagRecords now apps rows).map AuditRecord.signed = rows.map AuditRecord.signed := by
  rw [flagRecords, List.map_map]
  refine List.map_congr_left fun r _ => ?_
  rw [Function.comp_apply]
  split <;> rfl

theorem signed_breakGlass {call : BreachCall} {applicationId : Uuid} {db db' : BreachDb} {row : BreakGlassRow}
    (h : breakGlass call applicationId db = .ok (row, db')) :
    db'.database.auditRecords.map AuditRecord.signed = db.database.auditRecords.map AuditRecord.signed := by
  unfold breakGlass at h
  dsimp only at h
  split at h
  · obtain ⟨-, rfl⟩ := Prod.mk.inj (Except.ok.inj h)
    exact signed_flagRecords _ _ _
  · cases h

/-- The loop of the range, by induction on the applications that are left. -/
theorem signed_breakGlassLoop {call : BreachCall} {apps : List Uuid} {acc acc' : BreakGlassRangeRow × BreachDb}
    (h : apps.foldlM (breakGlassLoop call) acc = .ok acc') :
    acc'.2.database.auditRecords.map AuditRecord.signed = acc.2.database.auditRecords.map AuditRecord.signed := by
  induction apps generalizing acc with
  | nil =>
    rw [List.foldlM_nil] at h
    rw [Except.ok.inj h]
  | cons u apps ih =>
    rw [List.foldlM_cons] at h
    obtain ⟨acc₁, hstep, hrest⟩ := bind_eq_ok.mp h
    obtain ⟨row, hrun⟩ := breakGlassLoop_ok hstep
    exact (ih hrest).trans (signed_breakGlass hrun)

variable {α D : Type} {s : AuditStore D}

/-- After an operation of the audit code, the signed columns are those of its records. -/
theorem signed_withWorld (s : AuditStore D) (w : World) (isDemo : Bool) :
    (s.withWorld w).signed isDemo = (w.dbs.getSessionContext isDemo).auditRecords.map AuditRecord.signed := by
  cases isDemo <;> rfl

/-- An operation on the applications leaves them alone. -/
theorem signed_withRetention (s : AuditStore D) (db : RetentionDb) (isDemo : Bool) :
    (s.withRetention db).signed isDemo = s.signed isDemo := by
  cases isDemo <;> rfl

/-- A procedure that leaves the signed columns alone. -/
theorem signed_afterProcedure {result : Except PyExc (α × BreachDb)}
    (h : ∀ row db, result = .ok (row, db) →
      db.database.auditRecords.map AuditRecord.signed = s.production.auditRecords.map AuditRecord.signed)
    (isDemo : Bool) : (s.afterProcedure result).signed isDemo = s.signed isDemo := by
  cases result with
  | error e => rfl
  | ok r =>
    obtain ⟨row, db⟩ := r
    cases isDemo with
    | false => exact h row db rfl
    | true => rfl

/-- A mark, whichever records it meets. -/
theorem signed_marked (dbs : Databases) (u : Uuid) (k : PyStr) (isDemo : Bool) :
    ((dbs.marked u k).getSessionContext isDemo).auditRecords.map AuditRecord.signed =
      (dbs.getSessionContext isDemo).auditRecords.map AuditRecord.signed := by
  cases isDemo with
  | false => exact map_markRow (fun _ _ => rfl) u k _
  | true => rfl

end

section

variable {D : Type} [FloatOps D] (C : Crypto)

/-- **Every operation keeps the records with their signed columns, and adds at most one at the end.** -/
theorem signed_step (s : AuditStore D) (l : AuditStep D) (isDemo : Bool) :
    ∃ new, (s.step C l).signed isDemo = s.signed isDemo ++ new ∧ new.length ≤ 1 := by
  have hkept : (s.step C l).signed isDemo = s.signed isDemo →
      ∃ new, (s.step C l).signed isDemo = s.signed isDemo ++ new ∧ new.length ≤ 1 := fun h =>
    ⟨[], by rw [h, List.append_nil], Nat.zero_le 1⟩
  cases l with
  | write env state =>
    rw [AuditStore.step, signed_withWorld]
    have hdbs : (writeAuditRecord C env s.world.dbs state).dbs = s.world.dbs ∨ _ := writeAuditRecord_dbs
    rcases hdbs with h | ⟨i, h⟩
    · rw [h]
      exact ⟨[], (List.append_nil _).symm, Nat.zero_le 1⟩
    · rw [h]
      cases isDemo with
      | false => exact ⟨[(i.prepared C s.world.dbs).record.signed], List.map_append, Nat.le_refl 1⟩
      | true => exact ⟨[], (List.append_nil _).symm, Nat.zero_le 1⟩
  | upload keys nonce faults args =>
    refine hkept ?_
    rw [AuditStore.step, signed_withWorld]
    rcases uploadAuditPayload_dbs C keys nonce faults args s.world with h | ⟨u, h⟩
    · rw [h]
      rfl
    · rw [h]
      exact signed_marked s.world.dbs u args.s3Key isDemo
  | mark attempt decisionId s3Key =>
    refine hkept ?_
    rw [AuditStore.step, signed_withWorld]
    rcases markUploaded_dbs attempt decisionId s3Key s.world.dbs with h | ⟨u, h⟩
    · rw [h]
      rfl
    · rw [h]
      exact signed_marked s.world.dbs u s3Key isDemo
  | breakGlass call applicationId =>
    exact hkept (signed_afterProcedure (fun _ _ h => signed_breakGlass h) isDemo)
  | breakGlassRange call start stop =>
    exact hkept (signed_afterProcedure (fun _ _ h => signed_breakGlassLoop h) isDemo)
  | wipeBatch task k => exact hkept (signed_withRetention s _ isDemo)
  | erase req => exact hkept (signed_withRetention s _ isDemo)
  | withdraw req => exact hkept (signed_withRetention s _ isDemo)

/-- And so does a run. -/
theorem signed_run (s : AuditStore D) (ls : List (AuditStep D)) (isDemo : Bool) :
    s.signed isDemo <+: (s.run C ls).signed isDemo := by
  induction ls generalizing s with
  | nil => exact List.prefix_refl _
  | cons l ls ih =>
    obtain ⟨new, hstep, -⟩ := signed_step C s l isDemo
    have hone : s.signed isDemo <+: (s.step C l).signed isDemo := ⟨new, hstep.symm⟩
    exact hone.trans (ih (s.step C l))

/-- The verification reads the signed columns only. -/
theorem runHmacOnlyVerification_congr {r r' : AuditRecord} (h : r'.signed = r.signed) (keys : Keys) :
    runHmacOnlyVerification C keys r' = runHmacOnlyVerification C keys r := by
  simp only [AuditRecord.signed, Prod.mk.injEq] at h
  obtain ⟨-, hd, hg, hh, hm, hw⟩ := h
  unfold runHmacOnlyVerification
  rw [hd, hg, hh, hm, hw]

/-- **In every run every record stays in its place with its signed columns, and its HMAC-only verification gives the
same result under the same keys.** -/
theorem signed_columns_kept (s : AuditStore D) (ls : List (AuditStep D)) (isDemo : Bool) :
    ∃ kept new, ((s.run C ls).world.dbs.getSessionContext isDemo).auditRecords = kept ++ new ∧
      List.Forall₂ (fun r r' : AuditRecord => r'.signed = r.signed ∧
          ∀ keys, runHmacOnlyVerification C keys r' = runHmacOnlyVerification C keys r)
        (s.world.dbs.getSessionContext isDemo).auditRecords kept := by
  obtain ⟨more, hmore⟩ := signed_run C s ls isDemo
  obtain ⟨kept, new, hrows, hkept, -⟩ := List.map_eq_append_iff.mp hmore.symm
  refine ⟨kept, new, hrows, ?_⟩
  have hsame : List.Forall₂ (fun r r' : AuditRecord => r'.signed = r.signed)
      (s.world.dbs.getSessionContext isDemo).auditRecords kept := by
    have hmaps : List.Forall₂ (fun x y => y = x) ((s.world.dbs.getSessionContext isDemo).auditRecords.map
        AuditRecord.signed) (kept.map AuditRecord.signed) := by
      rw [hkept]
      exact List.forall₂_same.mpr fun _ _ => rfl
    exact List.forall₂_map_left_iff.mp (List.forall₂_map_right_iff.mp hmaps)
  exact hsame.imp fun r r' h => ⟨h, runHmacOnlyVerification_congr C h⟩

end

end ComplianceLoop
