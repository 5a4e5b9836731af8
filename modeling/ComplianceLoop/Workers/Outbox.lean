import ComplianceLoop.Transition.Locks
import ComplianceLoop.Transition.Runs
import ComplianceLoop.Workers.NotificationWorker

/-!
# Polls and deliveries of the outbox

Any number of polls and delivery tasks on the rows of the outbox. A poll locks the rows that it selects, enqueues a task
for each and commits; a task waits for its countdown and for the lock of its row, dispatches under the lock, and writes
back what came of it; a task whose dispatch raised is retried by Celery. Rows come in at any time. There is one lemma
for each kind of step, about everything that the step can do.
-/

set_option autoImplicit false

namespace ComplianceLoop

open PyLib Transition

/-- Where a delivery task is: waiting until a time, or between the checks and the end of the dispatch. -/
inductive DeliveryPhase where
  | waiting (eta : Int)
  | running
  deriving DecidableEq

/-- An outstanding `deliver_notification` task; `retries` is `self.request.retries`. -/
structure Delivery where
  notification : Uuid
  retries : Nat
  phase : DeliveryPhase
  deriving DecidableEq

/-- `max_retries` of the task. -/
def deliverMaxRetries : Nat := 3

/-- What `deliver_notification` leaves outstanding: `self.retry` after an exception, up to its limit. -/
def Delivery.next (d : Delivery) (now : Int) (outcome : Except PyExc Unit) : Option Delivery :=
  if returned outcome = false ∧ d.retries < deliverMaxRetries then
    some ⟨d.notification, d.retries + 1, .waiting (secondsAfter now (retryBackoffSeconds d.retries))⟩
  else none

/-- The outbox and what works on it; `fresh` lists the rows that came in pending and without attempts, as they were. -/
structure Outbox where
  rows : List NotificationOutbox
  tasks : Nat → Option Delivery
  polls : Nat → Option (List Uuid)
  locks : LockTable Uuid
  dispatches : List (Uuid × Bool)
  fresh : List NotificationOutbox

/-- The steps; a poll and a task have a number. -/
inductive OutboxStep where
  /-- A row comes in. -/
  | create (n : NotificationOutbox)
  /-- The SELECT of a poll, with the rows that it returns. -/
  | pollSelect (p : Nat) (now : Int) (rows : List NotificationOutbox)
  /-- A poll enqueues its next task. -/
  | pollEnqueue (p q : Nat) (now : Int)
  | pollCommit (p : Nat)
  /-- A task locks and reads its row and goes through the checks. -/
  | begin (p : Nat) (now : Int)
  /-- The dispatch of a task ends, and the task writes back and commits. -/
  | dispatch (p : Nat) (now : Int) (outcome : Except PyExc Unit)

namespace Outbox

/-- Nothing has come in yet. -/
def empty : Outbox := ⟨[], fun _ => none, fun _ => none, .empty, [], []⟩

/-- No poll and no task has this number. -/
def isIdle (s : Outbox) (p : Nat) : Bool := (s.tasks p).isNone && (s.polls p).isNone

/-- The rows that a poll can get. -/
def candidates (s : Outbox) (now : Int) : List NotificationOutbox :=
  s.rows.filter fun n => n.isDue now && s.locks.isFree n.id

/-- One step; `none` where it is not possible or has to wait. -/
def step (s : Outbox) : OutboxStep → Option Outbox
  | .create n =>
    if n.id ∈ s.rows.map NotificationOutbox.id then none
    else
      some { s with
        rows := s.rows ++ [n]
        fresh := if n.status = .pending ∧ n.retryCount = 0 then n :: s.fresh else s.fresh }
  | .pollSelect p now rows =>
    if s.isIdle p ∧ PollSelects (s.candidates now) rows then
      (LockTable.acquireAll p (rows.map NotificationOutbox.id) s.locks).map fun locks =>
        { s with locks := locks, polls := Function.update s.polls p (some (rows.map NotificationOutbox.id)) }
    else none
  | .pollEnqueue p q now =>
    match s.polls p with
    | some (id :: ids) =>
      if s.isIdle q then
        some { s with
          tasks := Function.update s.tasks q (some ⟨id, 0, .waiting now⟩)
          polls := Function.update s.polls p (some ids) }
      else none
    | _ => none
  | .pollCommit p =>
    match s.polls p with
    | some [] => some { s with locks := s.locks.release p, polls := Function.update s.polls p none }
    | _ => none
  | .begin p now =>
    match s.tasks p with
    | some ⟨id, retries, .waiting eta⟩ =>
      if eta ≤ now then
        match findRow s.rows id with
        | none => some { s with tasks := Function.update s.tasks p none }
        | some n =>
          (s.locks.acquire id p).map fun locks =>
            match n.guard with
            | .skip _ => { s with locks := locks.release p, tasks := Function.update s.tasks p none }
            | .exhausted =>
              { s with
                rows := updateRow s.rows id NotificationOutbox.exhaust
                locks := locks.release p
                tasks := Function.update s.tasks p none }
            | .dispatch =>
              { s with locks := locks, tasks := Function.update s.tasks p (some ⟨id, retries, .running⟩) }
      else none
    | _ => none
  | .dispatch p now outcome =>
    match s.tasks p with
    | some ⟨id, retries, .running⟩ =>
      some { s with
        rows := updateRow s.rows id fun n => n.afterDispatch now outcome
        locks := s.locks.release p
        dispatches := s.dispatches ++ [(id, returned outcome)]
        tasks := Function.update s.tasks p (Delivery.next ⟨id, retries, .running⟩ now outcome) }
    | _ => none

/-- The outcomes of the dispatches of a row, the oldest first. -/
def outcomes (s : Outbox) (id : Uuid) : List Bool := (s.dispatches.filter (·.1 = id)).map Prod.snd

/-- The task is dispatching the notification. -/
def Dispatching (s : Outbox) (p : Nat) (id : Uuid) : Prop :=
  ∃ t, s.tasks p = some t ∧ t.notification = id ∧ t.phase = .running

end Outbox

/-- The polls and deliveries as a system. -/
def outboxSystem : System Outbox OutboxStep := ⟨Outbox.step⟩

/-! ## What a step does -/

section

variable {s s' : Outbox} {p q : Nat} {now : Int}

theorem step_create {n : NotificationOutbox} (h : s.step (.create n) = some s') :
    n.id ∉ s.rows.map NotificationOutbox.id ∧
      s' = { s with
        rows := s.rows ++ [n]
        fresh := if n.status = .pending ∧ n.retryCount = 0 then n :: s.fresh else s.fresh } := by
  rw [Outbox.step] at h
  split at h
  · cases h
  · rename_i hn
    exact ⟨hn, (Option.some.inj h).symm⟩

theorem step_pollSelect {rows : List NotificationOutbox} (h : s.step (.pollSelect p now rows) = some s') :
    s.isIdle p = true ∧ PollSelects (s.candidates now) rows ∧
      ∃ locks, LockTable.acquireAll p (rows.map NotificationOutbox.id) s.locks = some locks ∧
        s' = { s with
          locks := locks
          polls := Function.update s.polls p (some (rows.map NotificationOutbox.id)) } := by
  rw [Outbox.step] at h
  split at h
  · rename_i hg
    obtain ⟨locks, hl, rfl⟩ := Option.map_eq_some_iff.mp h
    exact ⟨hg.1, hg.2, locks, hl, rfl⟩
  · cases h

theorem step_pollEnqueue (h : s.step (.pollEnqueue p q now) = some s') :
    ∃ id ids, s.polls p = some (id :: ids) ∧ s.isIdle q = true ∧
      s' = { s with
        tasks := Function.update s.tasks q (some ⟨id, 0, .waiting now⟩)
        polls := Function.update s.polls p (some ids) } := by
  rw [Outbox.step] at h
  split at h
  · rename_i id ids hp
    split at h
    · rename_i hq
      exact ⟨id, ids, hp, hq, (Option.some.inj h).symm⟩
    · cases h
  · cases h

theorem step_pollCommit (h : s.step (.pollCommit p) = some s') :
    s.polls p = some [] ∧
      s' = { s with
        locks := s.locks.release p
        polls := Function.update s.polls p none } := by
  rw [Outbox.step] at h
  split at h
  · rename_i hp
    exact ⟨hp, (Option.some.inj h).symm⟩
  · cases h

/-- A task that begins finds no row, or returns after the checks, or gives the row up, or goes on to the dispatch. -/
theorem step_begin (h : s.step (.begin p now) = some s') :
    ∃ id retries eta, s.tasks p = some ⟨id, retries, .waiting eta⟩ ∧
      (findRow s.rows id = none ∧ s' = { s with tasks := Function.update s.tasks p none } ∨
        ∃ n locks, findRow s.rows id = some n ∧ s.locks.acquire id p = some locks ∧
          (s' = { s with locks := locks.release p, tasks := Function.update s.tasks p none } ∨
            n.guard = .exhausted ∧
              s' = { s with
                rows := updateRow s.rows id NotificationOutbox.exhaust
                locks := locks.release p
                tasks := Function.update s.tasks p none } ∨
            n.guard = .dispatch ∧
              s' = { s with
                locks := locks
                tasks := Function.update s.tasks p (some ⟨id, retries, .running⟩) })) := by
  rw [Outbox.step] at h
  split at h
  · rename_i id retries eta hp
    refine ⟨id, retries, eta, hp, ?_⟩
    split at h
    · split at h
      · rename_i hn
        exact .inl ⟨hn, (Option.some.inj h).symm⟩
      · rename_i n hn
        obtain ⟨locks, hl, hs⟩ := Option.map_eq_some_iff.mp h
        refine .inr ⟨n, locks, hn, hl, ?_⟩
        cases hg : n.guard with
        | skip status =>
          rw [hg] at hs
          exact .inl hs.symm
        | exhausted =>
          rw [hg] at hs
          exact .inr (.inl ⟨rfl, hs.symm⟩)
        | dispatch =>
          rw [hg] at hs
          exact .inr (.inr ⟨rfl, hs.symm⟩)
    · cases h
  · cases h

theorem step_dispatch {outcome : Except PyExc Unit} (h : s.step (.dispatch p now outcome) = some s') :
    ∃ id retries, s.tasks p = some ⟨id, retries, .running⟩ ∧
      s' = { s with
        rows := updateRow s.rows id fun n => n.afterDispatch now outcome
        locks := s.locks.release p
        dispatches := s.dispatches ++ [(id, returned outcome)]
        tasks := Function.update s.tasks p (Delivery.next ⟨id, retries, .running⟩ now outcome) } := by
  rw [Outbox.step] at h
  split at h
  · rename_i id retries hp
    exact ⟨id, retries, hp, (Option.some.inj h).symm⟩
  · cases h

/-- A retry waits for its countdown. -/
theorem Delivery.next_eq_some {d t : Delivery} {outcome : Except PyExc Unit} (h : d.next now outcome = some t) :
    t.notification = d.notification ∧ t.phase ≠ .running := by
  unfold Delivery.next at h
  split at h
  · obtain rfl := Option.some.inj h
    exact ⟨rfl, DeliveryPhase.noConfusion⟩
  · cases h

/-- What is found in a table after one entry has changed. -/
theorem update_eq_some {α : Type} {f : Nat → Option α} {a : Option α} {b : α} (h : Function.update f p a q = some b) :
    q = p ∧ a = some b ∨ q ≠ p ∧ f q = some b := by
  by_cases hq : q = p
  · subst hq
    rw [Function.update_self] at h
    exact .inl ⟨rfl, h⟩
  · rw [Function.update_of_ne hq] at h
    exact .inr ⟨hq, h⟩

theorem Outbox.isIdle_iff : s.isIdle p = true ↔ s.tasks p = none ∧ s.polls p = none := by
  rw [Outbox.isIdle, Bool.and_eq_true, Option.isNone_iff_eq_none, Option.isNone_iff_eq_none]

/-- A task that nothing gets between does what the code of a delivery does. -/
theorem deliverNotificationAsync_eq_steps {t : Outbox} {id : Uuid} {retries : Nat} {eta : Int} {n : NotificationOutbox}
    (hp : s.tasks p = some ⟨id, retries, .waiting eta⟩) (hn : findRow s.rows id = some n)
    (ht : s.step (.begin p now) = some t) (dispatch : NotificationOutbox → Except PyExc Unit) :
    (n.guard ≠ .dispatch → t.tasks p = none ∧ (deliverNotificationAsync dispatch now id.str s.rows).2 = t.rows) ∧
      (n.guard = .dispatch → t.step (.dispatch p now (dispatch n)) = some s' →
        returned (deliverNotificationAsync dispatch now id.str s.rows).1 = returned (dispatch n) ∧
          (deliverNotificationAsync dispatch now id.str s.rows).2 = s'.rows) := by
  rw [deliverNotificationAsync, Uuid.parse_str, Outbox.step, hp] at *
  simp only [hn] at ht ⊢
  split at ht
  · obtain ⟨locks, -, rfl⟩ := Option.map_eq_some_iff.mp ht
    cases hg : n.guard with
    | skip status => exact ⟨fun _ => ⟨Function.update_self _ _ _, rfl⟩, fun h => by cases h⟩
    | exhausted => exact ⟨fun _ => ⟨Function.update_self _ _ _, rfl⟩, fun h => by cases h⟩
    | dispatch =>
      refine ⟨fun h => absurd rfl h, fun _ hs => ?_⟩
      obtain ⟨id', retries', hp', rfl⟩ := step_dispatch hs
      have hid : Function.update s.tasks p (some ⟨id, retries, .running⟩) p = some ⟨id', retries', .running⟩ := hp'
      rw [Function.update_self] at hid
      obtain ⟨rfl, -⟩ := Delivery.mk.inj (Option.some.inj hid)
      refine ⟨?_, rfl⟩
      cases dispatch n <;> rfl
  · cases ht

end

namespace OutboxSample

/-- A row that has just come in. -/
def row : NotificationOutbox where
  id := ⟨Fin.ofNat _ 1⟩
  notificationType := .breachAlert
  channel := .email
  recipientApplicationId := none
  recipientEmail := none
  payload := []
  status := .pending
  retryCount := 0
  maxRetries := 3
  nextRetryAt := none
  sentAt := none
  failureReason := none
  createdAt := 0
  isDemo := false

/-- A poll that selects the row and enqueues its task. -/
def poll (p q : Nat) (now : Int) : List OutboxStep := [.pollSelect p now [row], .pollEnqueue p q now, .pollCommit p]

/-- Two polls before the first task begins; its dispatch fails, that of the second succeeds, and the retry of the first
comes after that. -/
def retried : List OutboxStep :=
  .create row :: poll 0 2 0 ++ poll 1 3 60000000 ++
    [.begin 2 60000000, .dispatch 2 60000000 (raise .osError "timed out".toList), .begin 3 61000000,
      .dispatch 3 61000000 (.ok ()), .begin 2 120000000]

end OutboxSample

end ComplianceLoop
