import ComplianceLoop.PyLib.Builtins

/-!
# Tables and sessions (`models/`, `db/session.py`)

The rows that the audit code reads and writes, with the columns it uses. There are two databases, and
`getSessionContext` picks one by its flag, whose default is production. `Database.insertAuditRecord` is the INSERT of an
audit record under the constraints of its table; an `Attempt` says how far a commit or a request gets.
-/

set_option autoImplicit false

namespace ComplianceLoop

open PyLib

/-- `DecisionOutcome`. -/
inductive DecisionOutcome where
  | approve
  | review
  | reject
  deriving DecidableEq, Repr

/-- The value of the enumeration member. -/
def DecisionOutcome.value : DecisionOutcome → Text
  | .approve => "APPROVE".toList
  | .review => "REVIEW".toList
  | .reject => "REJECT".toList

/-- A row of `decisions`. -/
structure Decision where
  id : Uuid
  outcome : DecisionOutcome
  deriving DecidableEq

/-- A row of `guideline_versions`. -/
structure GuidelineVersion where
  id : Uuid
  affectedAgentTags : List Text
  deriving DecidableEq

/-- A row of `audit_records`. -/
structure AuditRecord where
  id : Uuid
  decisionId : Uuid
  applicationId : Uuid
  guidelineVersionId : Uuid
  affectedAgentTags : List Text
  agentOutputsHash : Text
  recordHmac : Text
  payloadS3Key : Option PyStr
  payloadS3Uploaded : Bool
  writtenAt : DateTime
  breachFlag : Bool
  breachFlaggedAt : Option DateTime
  isDemo : Bool
  deriving DecidableEq

/-- A database. Of the applications only the ids matter here. -/
structure Database where
  auditRecords : List AuditRecord
  decisions : List Decision
  guidelineVersions : List GuidelineVersion
  applications : List Uuid
  deriving DecidableEq

/-- The production and the demo database. -/
structure Databases where
  production : Database
  demo : Database
  deriving DecidableEq

namespace Databases

/-- The database of `get_session_context(is_demo=...)`. -/
def getSessionContext (dbs : Databases) (isDemo : Bool := false) : Database :=
  if isDemo then dbs.demo else dbs.production

/-- The databases after a commit of such a session. -/
def commit (dbs : Databases) (db : Database) (isDemo : Bool := false) : Databases :=
  if isDemo then { dbs with demo := db } else { dbs with production := db }

end Databases

/-- How far a request to a database or to the object store gets. -/
inductive Attempt where
  /-- It takes effect and returns. -/
  | done
  /-- It raises without any effect. -/
  | refused
  /-- It takes effect, and the connection fails before the answer. -/
  | unacknowledged
  deriving DecidableEq, Repr

/-- What the caller gets and what is left, from a state before the request and the state it aims at. -/
def Attempt.run {σ : Type} (attempt : Attempt) (type : ExcType) (before after : σ) : Except PyExc Unit × σ :=
  match attempt with
  | .done => (.ok (), after)
  | .refused => (raise type "connection failed".toList, before)
  | .unacknowledged => (raise type "connection failed".toList, after)

/-- `scalar_one_or_none()`. -/
def scalarOneOrNone {α : Type} : List α → Except PyExc (Option α)
  | [] => .ok none
  | [a] => .ok (some a)
  | _ :: _ :: _ => raise .databaseError "Multiple rows were found when one or none was required".toList

namespace Database

/-- The constraints of `audit_records` on a new row: the primary key, the unique decision, the three foreign keys and
the width of the `payload_s3_key` column. -/
def admits (db : Database) (id decisionId applicationId guidelineVersionId : Uuid) (s3Key : PyStr) : Bool :=
  db.auditRecords.all (·.id ≠ id) && db.auditRecords.all (·.decisionId ≠ decisionId) &&
    db.decisions.any (·.id = decisionId) && db.applications.contains applicationId &&
    db.guidelineVersions.any (·.id = guidelineVersionId) && s3Key.length ≤ 500

/-- Whether the row can be inserted. -/
def accepts (db : Database) (r : AuditRecord) : Bool :=
  db.admits r.id r.decisionId r.applicationId r.guidelineVersionId (r.payloadS3Key.getD [])

/-- INSERT and COMMIT of an audit record: what the caller gets and the database afterwards. -/
def insertAuditRecord (db : Database) (r : AuditRecord) (attempt : Attempt) : Except PyExc Unit × Database :=
  if db.accepts r then attempt.run .databaseError db { db with auditRecords := db.auditRecords ++ [r] }
  else (raise .databaseError "constraint violated".toList, db)

/-- `select(AuditRecord).where(AuditRecord.decision_id == u)`. -/
def auditRecordsOf (db : Database) (u : Uuid) : List AuditRecord := db.auditRecords.filter (·.decisionId = u)

/-- `select(Decision).where(Decision.id == u)`. -/
def decisionsOf (db : Database) (u : Uuid) : List Decision := db.decisions.filter (·.id = u)

/-- The unique columns that the queries rely on. -/
structure Keyed (db : Database) : Prop where
  auditRecords : (db.auditRecords.map AuditRecord.decisionId).Nodup
  decisions : (db.decisions.map Decision.id).Nodup

end Database

/-! ## Unique rows -/

theorem filter_of_nodup_key {α β : Type} [DecidableEq β] {f : α → β} {a : α} {xs : List α} (hn : (xs.map f).Nodup)
    (ha : a ∈ xs) : xs.filter (f · = f a) = [a] := by
  induction xs with
  | nil => exact absurd ha List.not_mem_nil
  | cons x xs ih =>
    rw [List.map_cons, List.nodup_cons] at hn
    rcases List.mem_cons.mp ha with rfl | ha
    · have : xs.filter (f · = f a) = [] := by
        refine List.filter_eq_nil_iff.mpr fun y hy hf => hn.1 ?_
        exact List.mem_map.mpr ⟨y, hy, of_decide_eq_true hf⟩
      rw [List.filter_cons_of_pos (by simp), this]
    · have hx : f x ≠ f a := fun he => hn.1 (he ▸ List.mem_map_of_mem ha)
      rw [List.filter_cons_of_neg (by simpa using hx), ih hn.2 ha]

theorem scalarOneOrNone_of_nodup_key {α β : Type} [DecidableEq β] {f : α → β} {xs : List α} (b : β)
    (hn : (xs.map f).Nodup) : ∃ o, scalarOneOrNone (xs.filter (f · = b)) = .ok o := by
  by_cases h : ∃ a ∈ xs, f a = b
  · obtain ⟨a, ha, rfl⟩ := h
    exact ⟨some a, by rw [filter_of_nodup_key hn ha]; rfl⟩
  · have : xs.filter (f · = b) = [] :=
      List.filter_eq_nil_iff.mpr fun a ha hf => h ⟨a, ha, of_decide_eq_true hf⟩
    exact ⟨none, by rw [this]; rfl⟩

namespace Database.Keyed

variable {db : Database} (h : db.Keyed)
include h

/-- The one record of a decision. -/
theorem auditRecordsOf_eq {r : AuditRecord} (hr : r ∈ db.auditRecords) : db.auditRecordsOf r.decisionId = [r] :=
  filter_of_nodup_key h.auditRecords hr

theorem auditRecord_query (u : Uuid) : ∃ o, scalarOneOrNone (db.auditRecordsOf u) = .ok o :=
  scalarOneOrNone_of_nodup_key u h.auditRecords

theorem decision_query (u : Uuid) : ∃ o, scalarOneOrNone (db.decisionsOf u) = .ok o :=
  scalarOneOrNone_of_nodup_key u h.decisions

end Database.Keyed

/-- The INSERT adds the row or leaves the database alone. -/
theorem Database.insertAuditRecord_snd (db : Database) (r : AuditRecord) (attempt : Attempt) :
    (db.insertAuditRecord r attempt).2 = db ∨
      (db.insertAuditRecord r attempt).2 = { db with auditRecords := db.auditRecords ++ [r] } := by
  unfold Database.insertAuditRecord
  split
  · cases attempt
    · exact .inr rfl
    · exact .inl rfl
    · exact .inr rfl
  · exact .inl rfl

/-- The INSERT keeps the unique columns unique, however far it gets. -/
theorem Database.Keyed.insertAuditRecord {db : Database} (h : db.Keyed) (r : AuditRecord) (attempt : Attempt) :
    (db.insertAuditRecord r attempt).2.Keyed := by
  unfold Database.insertAuditRecord
  split
  · rename_i ha
    have hn : (({ db with auditRecords := db.auditRecords ++ [r] } : Database)).Keyed := by
      refine ⟨?_, h.decisions⟩
      simp only [Database.accepts, Database.admits, Bool.and_eq_true, List.all_eq_true, decide_eq_true_eq] at ha
      obtain ⟨⟨⟨⟨⟨-, hd⟩, -⟩, -⟩, -⟩, -⟩ := ha
      rw [List.map_append, List.nodup_append]
      refine ⟨h.auditRecords, List.nodup_singleton _, ?_⟩
      intro a ha b hb
      obtain ⟨x, hx, rfl⟩ := List.mem_map.mp ha
      rw [List.map_singleton, List.mem_singleton] at hb
      exact hb ▸ hd x hx
    cases attempt
    · exact hn
    · exact h
    · exact hn
  · exact h

end ComplianceLoop
