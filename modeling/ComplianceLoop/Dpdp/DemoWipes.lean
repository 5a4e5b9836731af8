import ComplianceLoop.Db.DemoRows
import ComplianceLoop.Dpdp.DataSubjectHandler
import ComplianceLoop.Dpdp.RetentionEnforcer

/-!
# The wipes and the demo rows

The nightly task and an erasure request select by the demo flag, so that neither of them depends on a demo row or
changes one (`runRetentionWipe_blind`, `handleErasureRequest_blind`).
-/

set_option autoImplicit false

namespace ComplianceLoop

open PyLib

/-- The retention tables before and after a run on each of two databases. -/
structure BlindWipe (db₁ db₂ after₁ after₂ : RetentionDb) : Prop where
  applications : Blind Application.isDemo db₁.applications db₂.applications after₁.applications after₂.applications
  events : after₁.events = after₂.events

section

variable {db₁ db₂ after₁ after₂ later₁ later₂ : RetentionDb}

theorem BlindWipe.trans (h : BlindWipe db₁ db₂ after₁ after₂) (h' : BlindWipe after₁ after₂ later₁ later₂) :
    BlindWipe db₁ db₂ later₁ later₂ :=
  ⟨h.applications.trans h'.applications, h'.events⟩

/-- A wipe of rows that are selected by the demo flag. -/
theorem blindWipe_wipeRows {now : DateTime} {apps : List Application} {events : List RetentionEvent}
    (hk₁ : db₁.Keyed) (hk₂ : db₂.Keyed) (h : BlindWipe db₁ db₂ db₁ db₂) (hin₁ : apps ⊆ db₁.applications)
    (hin₂ : apps ⊆ db₂.applications) (hdemo : ∀ a ∈ apps, a.isDemo = false) :
    BlindWipe db₁ db₂ ⟨wipeRows now (apps.map Application.id) db₁.applications, db₁.events ++ events⟩
      ⟨wipeRows now (apps.map Application.id) db₂.applications, db₂.events ++ events⟩ := by
  -- no demo row has the id of a selected row
  have hkept : ∀ {db : RetentionDb}, db.Keyed → apps ⊆ db.applications → ∀ a ∈ db.applications, a.isDemo = true →
      (if (apps.map Application.id).contains a.id then a.wipe now else a) = a := by
    intro db hk hin a ha hd
    refine if_neg fun hc => ?_
    obtain ⟨b, hb, hid⟩ := List.mem_map.mp (List.contains_iff_mem.mp hc)
    obtain rfl := hk.ext (hin hb) ha hid
    rw [hdemo b hb] at hd
    cases hd
  refine ⟨Blind.map h.applications.agree ?_ (hkept hk₁ hin₁) (hkept hk₂ hin₂), ?_⟩
  · intro a
    split <;> rfl
  · show db₁.events ++ events = db₂.events ++ events
    rw [show db₁.events = db₂.events from h.events]

end

/-! ## The nightly task -/

namespace WipeTask

variable {task : WipeTask}

theorem not_isDemo_of_due {now : DateTime} {a : Application} (h : a.due now = true) : a.isDemo = false := by
  simp only [Application.due, Bool.and_eq_true, Bool.not_eq_true'] at h
  exact h.2

/-- Two databases in the middle of a run. -/
structure BlindBatch (db₁ db₂ : RetentionDb) (s₁ s₂ : BatchState) : Prop where
  wiped : s₁.wiped = s₂.wiped
  errors : s₁.errors = s₂.errors
  tables : BlindWipe db₁ db₂ s₁.db s₂.db

/-- One batch. -/
theorem blindBatch_wipeBatch (ho : ∀ k rows, task.order k rows ⊆ rows) {db₁ db₂ : RetentionDb} (hk₁ : db₁.Keyed)
    (hk₂ : db₂.Keyed) (h : BlindWipe db₁ db₂ db₁ db₂) (k : Nat) :
    BlindBatch db₁ db₂ (task.wipeBatch k db₁) (task.wipeBatch k db₂) := by
  have hselected : task.selected k db₁ = task.selected k db₂ := by
    rw [selected, selected, filter_eq_of_agree h.applications.agree fun a => not_isDemo_of_due]
  have hmem : ∀ {db : RetentionDb}, ∀ a ∈ task.selected k db, a ∈ db.applications ∧ a.isDemo = false := by
    intro db a ha
    obtain ⟨ha, hd⟩ := List.mem_filter.mp (ho k _ (List.mem_of_mem_take ha))
    exact ⟨ha, not_isDemo_of_due hd⟩
  have hwiped : ∀ {db : RetentionDb}, ∀ a ∈ (task.selected k db).filter (!task.fails ·), a ∈ db.applications :=
    fun a ha => (hmem a (List.mem_filter.mp ha).1).1
  rw [wipeBatch_eq, wipeBatch_eq, hselected]
  refine ⟨rfl, rfl, ?_⟩
  refine blindWipe_wipeRows hk₁ hk₂ h ?_ ?_ ?_
  · rw [← hselected]
    exact hwiped
  · exact hwiped
  · exact fun a ha => (hmem a (List.mem_filter.mp ha).1).2

/-- The loop. -/
theorem blindBatch_runBatches (ho : ∀ k rows, task.order k rows ⊆ rows) {db₁ db₂ : RetentionDb} {s₁ s₂ : BatchState}
    (fuel k : Nat) (hk₁ : s₁.db.Keyed) (hk₂ : s₂.db.Keyed) (h : BlindBatch db₁ db₂ s₁ s₂) :
    Option.Rel (BlindBatch db₁ db₂) (task.runBatches fuel k s₁) (task.runBatches fuel k s₂) := by
  induction fuel generalizing k s₁ s₂ with
  | zero => exact .none
  | succ fuel ih =>
    have hstart : BlindWipe s₁.db s₂.db s₁.db s₂.db := ⟨.refl h.tables.applications.agree, h.tables.events⟩
    have hbatch := blindBatch_wipeBatch ho hk₁ hk₂ hstart k
    have hnext : BlindBatch db₁ db₂
        ⟨(task.wipeBatch k s₁.db).db, s₁.wiped + (task.wipeBatch k s₁.db).wiped,
          s₁.errors + (task.wipeBatch k s₁.db).errors⟩
        ⟨(task.wipeBatch k s₂.db).db, s₂.wiped + (task.wipeBatch k s₂.db).wiped,
          s₂.errors + (task.wipeBatch k s₂.db).errors⟩ :=
      ⟨by simp only [h.wiped, hbatch.wiped], by simp only [h.errors, hbatch.errors], h.tables.trans hbatch.tables⟩
    rw [runBatches, runBatches, hbatch.wiped]
    split
    · rw [hbatch.wiped] at hnext
      exact .some hnext
    · rw [hbatch.wiped] at hnext
      refine ih (k + 1) ?_ ?_ hnext
      · exact (progress_wipeBatch k s₁.db).keyed hk₁
      · exact (progress_wipeBatch k s₂.db).keyed hk₂

end WipeTask

section

variable {D : Type} {p₁ p₂ : ProductionTables D}

/-- **The nightly task**: the same statistics and the same wipes outside the demo rows, which stay as they are. -/
theorem runRetentionWipe_blind (h : p₁.Agree p₂) (hk₁ : p₁.Keyed) (hk₂ : p₂.Keyed) {task : WipeTask}
    (ho : ∀ k rows, task.order k rows ⊆ rows) (fuel : Nat) (finish : DateTime) :
    Option.Rel (fun r₁ r₂ => r₁.1 = r₂.1 ∧ BlindWipe p₁.retention p₂.retention r₁.2 r₂.2)
      (runRetentionWipe task fuel finish p₁.retention) (runRetentionWipe task fuel finish p₂.retention) := by
  have hstart : WipeTask.BlindBatch p₁.retention p₂.retention ⟨p₁.retention, 0, 0⟩ ⟨p₂.retention, 0, 0⟩ :=
    ⟨rfl, rfl, .refl h.applications, h.retentionEvents⟩
  have hr₁ : p₁.retention.Keyed := hk₁.applications
  have hr₂ : p₂.retention.Keyed := hk₂.applications
  have hrun := WipeTask.blindBatch_runBatches ho fuel 0 hr₁ hr₂ hstart
  unfold runRetentionWipe
  revert hrun
  generalize task.runBatches fuel 0 ⟨p₁.retention, 0, 0⟩ = r₁
  generalize task.runBatches fuel 0 ⟨p₂.retention, 0, 0⟩ = r₂
  intro hrun
  cases hrun with
  | none => exact .none
  | some hend =>
    refine .some ⟨?_, hend.tables⟩
    simp only [hend.wiped, hend.errors]

/-- **An erasure request**: the same answer and the same wipes outside the demo rows, which stay as they are. -/
theorem handleErasureRequest_blind (h : p₁.Agree p₂) (hk₁ : p₁.Keyed) (hk₂ : p₂.Keyed) (req : ErasureRequest) :
    (handleErasureRequest req p₁.retention).1 = (handleErasureRequest req p₂.retention).1 ∧
      BlindWipe p₁.retention p₂.retention (handleErasureRequest req p₁.retention).2
        (handleErasureRequest req p₂.retention).2 := by
  have hstart : BlindWipe p₁.retention p₂.retention p₁.retention p₂.retention :=
    ⟨.refl h.applications, h.retentionEvents⟩
  cases hu : Uuid.parse req.applicantId with
  | none =>
    unfold handleErasureRequest
    simp only [hu]
    exact ⟨trivial, hstart⟩
  | some applicantId =>
    have hdemo : ∀ a, req.selects applicantId a = true → a.isDemo = false := by
      intro a ha
      simp only [ErasureRequest.selects, Bool.and_eq_true, Bool.not_eq_true'] at ha
      exact ha.2
    have hselected : p₁.retention.applications.filter (req.selects applicantId) =
        p₂.retention.applications.filter (req.selects applicantId) := filter_eq_of_agree h.applications hdemo
    constructor
    · unfold handleErasureRequest
      simp only [hu, hselected, foldl_eraseOne]
      split <;> rfl
    · have hsub : ∀ rows : List Application, (rows.filter (req.selects applicantId)).filter (!·.retentionWiped) ⊆
          rows := fun rows a ha => (List.mem_filter.mp (List.mem_filter.mp ha).1).1
      rw [handleErasureRequest_snd hu, handleErasureRequest_snd hu, hselected]
      refine blindWipe_wipeRows hk₁.applications hk₂.applications hstart ?_ (hsub _) ?_
      · rw [← hselected]
        exact hsub _
      · exact fun a ha => hdemo a (List.mem_filter.mp (List.mem_filter.mp ha).1).2

end

end ComplianceLoop
