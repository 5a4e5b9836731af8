import Mathlib.Data.Prod.Lex
import ComplianceLoop.Transition.Limit
import ComplianceLoop.Workers.NotificationWorker

/-!
# One poll of the outbox

`Poll.enqueues` is `_poll_outbox_async` on a table: the rows for which it enqueues a task, in order. It is one of the
selections that a poll may make (`pollSelects_enqueues`), with the ties in `created_at` broken by a number of each id. A
poll writes nothing.
-/

set_option autoImplicit false

namespace ComplianceLoop

open PyLib Transition

/-- What a poll depends on besides the rows: the clock, the rows that others have locked, and the order of rows with the
same `created_at`. -/
structure Poll where
  now : Int
  locked : Uuid → Bool
  tie : Uuid → Nat
  injective : Function.Injective tie

namespace Poll

variable (poll : Poll)

/-- The key of `ORDER BY created_at`. -/
def key (n : NotificationOutbox) : Lex (Int × Nat) := toLex (n.createdAt, poll.tie n.id)

/-- The rows that the poll can get. -/
def candidates (rows : List NotificationOutbox) : List NotificationOutbox :=
  rows.filter fun n => n.isDue poll.now && !poll.locked n.id

/-- `_poll_outbox_async`: the rows for which it enqueues a task. -/
def enqueues (rows : List NotificationOutbox) : List NotificationOutbox :=
  firstBy poll.key outboxPollBatchSize (poll.candidates rows)

variable {poll} {rows : List NotificationOutbox} {m n : NotificationOutbox}

theorem createdAt_le_of_key_lt (h : poll.key m < poll.key n) : m.createdAt ≤ n.createdAt := by
  rcases Prod.Lex.lt_iff.mp h with hlt | ⟨he, -⟩
  · exact le_of_lt hlt
  · exact le_of_eq he

theorem key_lt_of_createdAt_lt (poll : Poll) (h : m.createdAt < n.createdAt) : poll.key m < poll.key n :=
  Prod.Lex.lt_iff.mpr (.inl h)

/-- Rows with different ids have different keys. -/
theorem nodup_key (poll : Poll) (h : (rows.map NotificationOutbox.id).Nodup) :
    ((poll.candidates rows).map poll.key).Nodup := by
  refine List.Nodup.map_on ?_ ((List.Nodup.of_map _ h).filter _)
  intro m hm n hn he
  have htie : poll.tie m.id = poll.tie n.id := congrArg (fun k => (ofLex k).2) he
  exact List.inj_on_of_nodup_map h (List.mem_filter.mp hm).1 (List.mem_filter.mp hn).1 (poll.injective htie)

/-- **The rows are a selection that a poll may make.** -/
theorem pollSelects_enqueues (h : (rows.map NotificationOutbox.id).Nodup) :
    PollSelects (poll.candidates rows) (poll.enqueues rows) := by
  have hkey := nodup_key poll h
  have hsorted := pairwise_firstBy hkey outboxPollBatchSize
  refine ⟨?_, ?_, ?_, ?_, ?_⟩
  · refine hsorted.imp ?_
    rintro m n hlt rfl
    exact lt_irrefl _ hlt
  · exact fun n hn => ((mem_firstBy_iff hkey).mp hn).1
  · simp [enqueues, firstBy]
  · exact hsorted.imp createdAt_le_of_key_lt
  · intro n hn
    by_cases hin : n ∈ poll.enqueues rows
    · exact .inl hin
    · refine .inr fun m hm => ?_
      by_contra hlt
      -- then the rows ahead of `n` are ahead of `m` too
      obtain ⟨-, hahead⟩ := (mem_firstBy_iff hkey).mp hm
      refine hin ((mem_firstBy_iff hkey).mpr ⟨hn, lt_of_le_of_lt ?_ hahead⟩)
      refine List.countP_mono_left fun c _ hc => ?_
      have hnm := key_lt_of_createdAt_lt poll (not_le.mp hlt)
      exact decide_eq_true (lt_trans (of_decide_eq_true hc) hnm)

end Poll

end ComplianceLoop
