import ComplianceLoop.Audit.RetryUploads
import ComplianceLoop.Db.BreakGlass

/-!
# Demo rows in the production database (`models/base.py`)

Two production databases agree outside the demo rows when every table has the same rows without its flag; a table
without the flag has the same rows. `Blind` compares two runs on such tables: what they leave agrees outside the demo
rows again, and the demo rows are as they were.
-/

set_option autoImplicit false

namespace ComplianceLoop

open PyLib

/-- The tables of a production database. -/
structure ProductionTables (D : Type) where
  applications : List Application
  retentionEvents : List RetentionEvent
  auditRecords : List AuditRecord
  decisions : List (DecisionRow D)
  guidelineVersions : List GuidelineVersion
  outbox : List NotificationOutbox

namespace ProductionTables

variable {D : Type} (p : ProductionTables D)

/-- What the wipes read and write. -/
def retention : RetentionDb := ⟨p.applications, p.retentionEvents⟩

/-- What the retry reads besides the audit records. -/
def retry : RetryTables D := ⟨p.decisions, p.applications⟩

/-- What the audit code reads and writes. -/
def database : Database where
  auditRecords := p.auditRecords
  decisions := p.decisions.map fun d => ⟨d.id, d.outcome⟩
  guidelineVersions := p.guidelineVersions
  applications := p.applications.map Application.id

/-- What a breach response reads and writes. -/
def breach : BreachDb := ⟨p.database, p.outbox⟩

/-- The primary keys, the unique decision of an audit record, and the foreign key on `applications`. -/
structure Keyed : Prop where
  applications : (p.applications.map Application.id).Nodup
  decisions : (p.decisions.map DecisionRow.id).Nodup
  auditRecords : (p.auditRecords.map AuditRecord.decisionId).Nodup
  outbox : (p.outbox.map NotificationOutbox.id).Nodup
  references : p.breach.References

/-- The databases agree outside the demo rows. -/
structure Agree (p₁ p₂ : ProductionTables D) : Prop where
  applications : p₁.applications.filter (!·.isDemo) = p₂.applications.filter (!·.isDemo)
  retentionEvents : p₁.retentionEvents = p₂.retentionEvents
  auditRecords : p₁.auditRecords.filter (!·.isDemo) = p₂.auditRecords.filter (!·.isDemo)
  decisions : p₁.decisions.filter (!·.isDemo) = p₂.decisions.filter (!·.isDemo)
  outbox : p₁.outbox.filter (!·.isDemo) = p₂.outbox.filter (!·.isDemo)

theorem Agree.symm {p₁ p₂ : ProductionTables D} (h : p₁.Agree p₂) : p₂.Agree p₁ :=
  ⟨h.applications.symm, h.retentionEvents.symm, h.auditRecords.symm, h.decisions.symm, h.outbox.symm⟩

variable {p}

theorem Keyed.retry (hk : p.Keyed) : p.retry.Keyed :=
  ⟨hk.decisions, hk.applications⟩

theorem Keyed.database (hk : p.Keyed) : p.database.Keyed where
  auditRecords := hk.auditRecords
  decisions := by
    show ((p.decisions.map fun d => (⟨d.id, d.outcome⟩ : Decision)).map Decision.id).Nodup
    rw [List.map_map]
    exact hk.decisions

end ProductionTables

section

variable {α : Type} {isDemo : α → Bool} {rows₁ rows₂ after₁ after₂ later₁ later₂ : List α}

/-- Two tables before and after a run on each: what is left agrees outside the demo rows, and those are as they were. -/
structure Blind (isDemo : α → Bool) (rows₁ rows₂ after₁ after₂ : List α) : Prop where
  agree : after₁.filter (!isDemo ·) = after₂.filter (!isDemo ·)
  demo₁ : after₁.filter isDemo = rows₁.filter isDemo
  demo₂ : after₂.filter isDemo = rows₂.filter isDemo

theorem Blind.refl (h : rows₁.filter (!isDemo ·) = rows₂.filter (!isDemo ·)) : Blind isDemo rows₁ rows₂ rows₁ rows₂ :=
  ⟨h, rfl, rfl⟩

theorem Blind.trans (h : Blind isDemo rows₁ rows₂ after₁ after₂) (h' : Blind isDemo after₁ after₂ later₁ later₂) :
    Blind isDemo rows₁ rows₂ later₁ later₂ :=
  ⟨h'.agree, h'.demo₁.trans h.demo₁, h'.demo₂.trans h.demo₂⟩

/-- The same rows are found by a query that filters the demo rows out. -/
theorem filter_eq_of_agree {p : α → Bool} (h : rows₁.filter (!isDemo ·) = rows₂.filter (!isDemo ·))
    (hp : ∀ a, p a = true → isDemo a = false) : rows₁.filter p = rows₂.filter p := by
  have hfilter : ∀ rows : List α, rows.filter p = (rows.filter (!isDemo ·)).filter p := by
    intro rows
    rw [List.filter_filter]
    refine List.filter_congr fun a _ => ?_
    by_cases hpa : p a = true
    · simp [hpa, hp a hpa]
    · simp [hpa]
  rw [hfilter rows₁, hfilter rows₂, h]

/-- A row that is no demo row is in both tables or in neither. -/
theorem mem_iff_of_agree (h : rows₁.filter (!isDemo ·) = rows₂.filter (!isDemo ·)) {a : α} (ha : isDemo a = false) :
    a ∈ rows₁ ↔ a ∈ rows₂ := by
  have hmem : a ∈ rows₁.filter (!isDemo ·) ↔ a ∈ rows₂.filter (!isDemo ·) := by rw [h]
  simpa [List.mem_filter, ha] using hmem

/-- The same update of both tables, which leaves the flag and the demo rows alone. -/
theorem Blind.map {f : α → α} (h : rows₁.filter (!isDemo ·) = rows₂.filter (!isDemo ·))
    (hf : ∀ a, isDemo (f a) = isDemo a) (hdemo₁ : ∀ a ∈ rows₁, isDemo a = true → f a = a)
    (hdemo₂ : ∀ a ∈ rows₂, isDemo a = true → f a = a) : Blind isDemo rows₁ rows₂ (rows₁.map f) (rows₂.map f) := by
  have hcomp : isDemo ∘ f = isDemo := funext hf
  have hkept : ∀ rows : List α, (∀ a ∈ rows, isDemo a = true → f a = a) →
      (rows.map f).filter isDemo = rows.filter isDemo := by
    intro rows hrows
    rw [List.filter_map, hcomp]
    refine (List.map_congr_left fun a ha => ?_).trans (List.map_id' _)
    obtain ⟨ha, hd⟩ := List.mem_filter.mp ha
    exact hrows a ha hd
  refine ⟨?_, hkept rows₁ hdemo₁, hkept rows₂ hdemo₂⟩
  have hflag : (fun a => !isDemo a) ∘ f = fun a => !isDemo a := funext fun a => congrArg not (hf a)
  rw [List.filter_map, List.filter_map, hflag, h]

/-- The same new rows in both tables, none of them a demo row. -/
theorem Blind.append {new : List α} (h : rows₁.filter (!isDemo ·) = rows₂.filter (!isDemo ·))
    (hnew : ∀ a ∈ new, isDemo a = false) : Blind isDemo rows₁ rows₂ (rows₁ ++ new) (rows₂ ++ new) := by
  have hnone : new.filter isDemo = [] :=
    List.filter_eq_nil_iff.mpr fun a ha hd => by simp [hnew a ha] at hd
  refine ⟨?_, ?_, ?_⟩
  · rw [List.filter_append, List.filter_append, h]
  · rw [List.filter_append, hnone, List.append_nil]
  · rw [List.filter_append, hnone, List.append_nil]

end

end ComplianceLoop
