import ComplianceLoop.Audit.DemoRetries
import ComplianceLoop.Dpdp.BreachFlags
import ComplianceLoop.Dpdp.DemoBreach
import ComplianceLoop.Dpdp.DemoWipes
import ComplianceLoop.Workers.Outbox
import ComplianceLoop.Workers.Poll

/-!
# Do demo rows influence production?

Five tasks of the production system select rows: the nightly wipe, an erasure request, the retry of uploads, a breach
response and the poll of the outbox. The first two are blind to the demo rows. The other three are exactly when the demo
rows are harmless (`demoBlind_iff`): they decide for no pending record, the breach procedure does not see them, and they
are not so many ahead of a due row that they crowd it out of a poll.
-/

set_option autoImplicit false

namespace ComplianceLoop

open PyLib Transition

section

variable {D : Type} {p₁ p₂ : ProductionTables D}

/-- A poll enqueues the same tasks for rows that are no demo rows. -/
def PollBlind (p₁ p₂ : ProductionTables D) : Prop :=
  ∀ poll : Poll, (poll.enqueues p₁.outbox).filter (!·.isDemo) = (poll.enqueues p₂.outbox).filter (!·.isDemo)

/-- No due row is crowded out of a poll on one side only. -/
def NotCrowded (p₁ p₂ : ProductionTables D) : Prop :=
  ∀ poll : Poll, ∀ n ∈ poll.candidates p₁.outbox, (!n.isDemo) = true →
    (ahead poll.key (poll.candidates p₁.outbox) n < outboxPollBatchSize ↔
      ahead poll.key (poll.candidates p₂.outbox) n < outboxPollBatchSize)

theorem pollBlind_iff (h : p₁.Agree p₂) (hk₁ : p₁.Keyed) (hk₂ : p₂.Keyed) :
    PollBlind p₁ p₂ ↔ NotCrowded p₁ p₂ := by
  refine forall_congr' fun poll => ?_
  refine filter_firstBy_eq_iff (Poll.nodup_key _ hk₁.outbox) (Poll.nodup_key _ hk₂.outbox) fun n hn => ?_
  have hmem : n ∈ p₁.outbox ↔ n ∈ p₂.outbox := mem_iff_of_agree h.outbox (Bool.not_eq_true' _ ▸ hn)
  simp only [Poll.candidates, List.mem_filter, hmem]

variable [FloatOps D] (C : Crypto) (keys : Keys) (conflict : VariableConflict)

/-- None of the five tasks depends on the demo rows or changes one. -/
structure DemoBlind (p₁ p₂ : ProductionTables D) : Prop where
  retention : ∀ (task : WipeTask) (fuel : Nat) (finish : DateTime), Orders task.order →
    Option.Rel (fun r₁ r₂ => r₁.1 = r₂.1 ∧ BlindWipe p₁.retention p₂.retention r₁.2 r₂.2)
      (runRetentionWipe task fuel finish p₁.retention) (runRetentionWipe task fuel finish p₂.retention)
  erasure : ∀ req : ErasureRequest,
    (handleErasureRequest req p₁.retention).1 = (handleErasureRequest req p₂.retention).1 ∧
      BlindWipe p₁.retention p₂.retention (handleErasureRequest req p₁.retention).2
        (handleErasureRequest req p₂.retention).2
  retry : RetryBlind C keys p₁ p₂
  breach : BreachBlind conflict p₁ p₂
  poll : PollBlind p₁ p₂

/-- The demo rows decide for no pending record whether it can be uploaded, the breach procedure does not see them, and
they crowd no due row out of a poll. -/
structure DemoHarmless (p₁ p₂ : ProductionTables D) : Prop where
  retry : canEncrypt C keys = true → ∀ r ∈ p₁.auditRecords, r.payloadS3Uploaded = false → r.isDemo = false →
    (Retryable p₁.retry r ↔ Retryable p₂.retry r)
  unseen₁ : DemoUnseen conflict p₁.auditRecords p₂.auditRecords
  unseen₂ : DemoUnseen conflict p₂.auditRecords p₁.auditRecords
  poll : NotCrowded p₁ p₂

/-- **The tasks are blind to the demo rows if and only if these are harmless.** -/
theorem demoBlind_iff (h : p₁.Agree p₂) (hk₁ : p₁.Keyed) (hk₂ : p₂.Keyed) :
    DemoBlind C keys conflict p₁ p₂ ↔ DemoHarmless C keys conflict p₁ p₂ := by
  constructor
  · intro hblind
    obtain ⟨hunseen₁, hunseen₂⟩ := (breachBlind_iff h hk₁ hk₂).mp hblind.breach
    exact ⟨(retryBlind_iff h hk₁ hk₂).mp hblind.retry, hunseen₁, hunseen₂, (pollBlind_iff h hk₁ hk₂).mp hblind.poll⟩
  · intro hharmless
    refine ⟨?_, ?_, ?_, ?_, ?_⟩
    · exact fun task fuel finish ho =>
        runRetentionWipe_blind h hk₁ hk₂ (fun k rows _ hr => (ho k rows).mem_iff.mp hr) fuel finish
    · exact handleErasureRequest_blind h hk₁ hk₂
    · exact (retryBlind_iff h hk₁ hk₂).mpr hharmless.retry
    · exact (breachBlind_iff h hk₁ hk₂).mpr ⟨hharmless.unseen₁, hharmless.unseen₂⟩
    · exact (pollBlind_iff h hk₁ hk₂).mpr hharmless.poll

end

namespace DemoSample

/-- A notification of the production system. -/
def latest : NotificationOutbox := { OutboxSample.row with createdAt := 1 }

/-- One application with its decision and its audit record, and this notification. -/
def tables : ProductionTables WholeFloat where
  applications := [WipeSample.application 1]
  retentionEvents := []
  auditRecords := [BreachSample.record 1 1 0]
  decisions := [RetrySample.decision 1]
  guidelineVersions := []
  outbox := [latest]

/-- A hundred demo notifications that are older. -/
def crowd : List NotificationOutbox :=
  (List.range 100).map fun i =>
    { OutboxSample.row with
      id := ⟨Fin.ofNat _ (i + 2)⟩
      isDemo := true }

/-- The same tables with these notifications. -/
def crowded : ProductionTables WholeFloat := { tables with outbox := latest :: crowd }

theorem agree : tables.Agree crowded := ⟨rfl, rfl, rfl, rfl, rfl⟩

theorem keyed : tables.Keyed :=
  ⟨List.nodup_singleton _, List.nodup_singleton _, List.nodup_singleton _, List.nodup_singleton _,
    fun _ hr => List.mem_singleton.mpr (by rw [List.mem_singleton.mp hr]; rfl)⟩

theorem keyed_crowded : crowded.Keyed :=
  ⟨keyed.applications, keyed.decisions, keyed.auditRecords, by decide, keyed.references⟩

theorem injective_int : Function.Injective fun u : Uuid => u.int.val := by
  rintro ⟨u⟩ ⟨v⟩ h
  have hval : u.val = v.val := h
  rw [Fin.ext hval]

/-- A poll of a database without locks. -/
def poll : Poll := ⟨1, fun _ => false, fun u => u.int.val, injective_int⟩

/-- The notification is crowded out. -/
theorem not_notCrowded : ¬ NotCrowded tables crowded := by
  intro h
  have hmem : latest ∈ poll.candidates tables.outbox := by decide
  have hfirst : ahead poll.key (poll.candidates tables.outbox) latest < outboxPollBatchSize := by decide
  have hlast : ¬ ahead poll.key (poll.candidates crowded.outbox) latest < outboxPollBatchSize := by
    decide +kernel
  exact hlast ((h poll latest hmem rfl).mp hfirst)

/-- A version of the cipher without the keyword `aad`. -/
def withoutAad : Crypto := { Sample.crypto with takesAad := false }

end DemoSample

theorem demoBlind_iff_crowded :
    DemoBlind Sample.crypto Sample.keys .useColumn DemoSample.tables DemoSample.crowded ↔
      DemoHarmless Sample.crypto Sample.keys .useColumn DemoSample.tables DemoSample.crowded :=
  demoBlind_iff Sample.crypto Sample.keys .useColumn DemoSample.agree DemoSample.keyed DemoSample.keyed_crowded

/-- A poll of the crowded table enqueues no task for the notification of the production system. Neither an upload nor a
breach response is needed for that: the cipher has no keyword `aad`, and the server refuses the breach procedure. -/
theorem production_row_crowded_out :
    ¬ ∀ p₁ p₂ : ProductionTables WholeFloat, p₁.Agree p₂ → p₁.Keyed → p₂.Keyed →
      DemoBlind DemoSample.withoutAad Sample.keys .error p₁ p₂ := by
  intro h
  have hblind := h DemoSample.tables DemoSample.crowded DemoSample.agree DemoSample.keyed DemoSample.keyed_crowded
  exact DemoSample.not_notCrowded
    ((pollBlind_iff DemoSample.agree DemoSample.keyed DemoSample.keyed_crowded).mp hblind.poll)

end ComplianceLoop
