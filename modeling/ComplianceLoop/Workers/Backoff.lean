import ComplianceLoop.Workers.AtMostOnce

/-!
# The backoff of the attempts

The outbox with a clock that does not go back, and a log of when the attempts on a notification started and failed and
of the `next_retry_at` that each failure stored. The table of delays is read at the counter that has just gone up, so
the failure number `k` of a row that came in without attempts stores `RETRY_BACKOFF_SECONDS[k]` (`TimedInv.stored`):
120, 240 and 480 seconds. Celery runs the task again after `RETRY_BACKOFF_SECONDS[k - 1]`, and a delivery does not read
`next_retry_at`. So a run keeps the documented backoff exactly when no dispatch fails (`backoffRespected_iff`).
-/

set_option autoImplicit false

namespace ComplianceLoop

open PyLib Transition

/-- What the log says of an attempt. -/
inductive AttemptEvent where
  | started (id : Uuid) (now : Int)
  | failed (id : Uuid) (now : Int) (nextRetryAt : Option Int)
  deriving DecidableEq

/-- The notification of the attempt. -/
def AttemptEvent.id : AttemptEvent → Uuid
  | .started id _ => id
  | .failed id _ _ => id

def AttemptEvent.isFailure : AttemptEvent → Bool
  | .started _ _ => false
  | .failed _ _ _ => true

/-- When an attempt on the notification started. -/
def AttemptEvent.startOf (id : Uuid) : AttemptEvent → Option Int
  | .started id' now => if id' = id then some now else none
  | .failed _ _ _ => none

/-- The outbox, the clock and the log, the oldest event first. -/
structure TimedOutbox where
  outbox : Outbox
  clock : Int
  log : List AttemptEvent

/-- What the clock says at the step. -/
def OutboxStep.time : OutboxStep → Option Int
  | .create _ => none
  | .pollSelect _ now _ => some now
  | .pollEnqueue _ _ now => some now
  | .pollCommit _ => none
  | .begin _ now => some now
  | .dispatch _ now _ => some now

/-- What a step from one state to the next adds to the log. -/
def attemptEvents (s t : Outbox) : OutboxStep → List AttemptEvent
  | .begin p now =>
    match t.tasks p with
    | some ⟨id, _, .running⟩ => [.started id now]
    | _ => []
  | .dispatch p now (.error _) =>
    match s.tasks p with
    | some d => [.failed d.notification now ((findRow t.rows d.notification).bind NotificationOutbox.nextRetryAt)]
    | none => []
  | _ => []

namespace TimedOutbox

/-- Nothing has come in yet. -/
def empty : TimedOutbox := ⟨.empty, 0, []⟩

def step (s : TimedOutbox) (l : OutboxStep) : Option TimedOutbox :=
  if l.time.all (s.clock ≤ ·) then
    (s.outbox.step l).map fun t => ⟨t, l.time.getD s.clock, s.log ++ attemptEvents s.outbox t l⟩
  else none

end TimedOutbox

/-- The outbox with its clock as a system. -/
def timedSystem : System TimedOutbox OutboxStep := ⟨TimedOutbox.step⟩

/-- How often the attempts on a notification failed. -/
def failures (log : List AttemptEvent) (id : Uuid) : Nat := log.countP fun e => e.isFailure && e.id = id

/-- When the next attempt on a notification started. -/
def nextStart (log : List AttemptEvent) (id : Uuid) : Option Int := log.findSome? (AttemptEvent.startOf id)

/-- The failure number `k` stores the time 60, 120 or 240 seconds later. -/
def DelaysDocumented (s : TimedOutbox) : Prop :=
  ∀ c ∈ s.outbox.fresh, ∀ earlier now next later, s.log = earlier ++ .failed c.id now next :: later →
    failures earlier c.id < 3 → next = some (secondsAfter now (60 * 2 ^ failures earlier c.id))

/-- The attempt after a failure does not start before the time that the failure stored. -/
def WaitsForRetry (s : TimedOutbox) : Prop :=
  ∀ c ∈ s.outbox.fresh, ∀ earlier now next later, s.log = earlier ++ .failed c.id now next :: later →
    ∀ start ∈ nextStart later c.id, ∃ due ∈ next, due ≤ start

/-- The documented backoff, for every notification that came in pending and without attempts. -/
def BackoffRespected (s : TimedOutbox) : Prop := DelaysDocumented s ∧ WaitsForRetry s

/-- The step is not a dispatch of such a notification that fails. -/
def DispatchSucceeds (s : TimedOutbox) : OutboxStep → Prop
  | .dispatch p _ (.error _) => ∀ c ∈ s.outbox.fresh, ¬ s.outbox.Dispatching p c.id
  | _ => True

/-- What holds between the steps: the log has the failures that the outbox dispatched, and a failure stores the delay
at the counter it leaves. -/
structure TimedInv (s : TimedOutbox) : Prop where
  outbox : OutboxInv s.outbox
  counted : ∀ id, failures s.log id = (s.outbox.outcomes id).count false
  stored : ∀ c ∈ s.outbox.fresh, ∀ earlier now next later, s.log = earlier ++ .failed c.id now next :: later →
    next = some (secondsAfter now (retryBackoffSeconds (failures earlier c.id + 1)))

/-! ## The log -/

section

variable {log earlier later : List AttemptEvent} {id : Uuid} {now : Int} {next : Option Int}

theorem failures_append (log events : List AttemptEvent) (id : Uuid) :
    failures (log ++ events) id = failures log id + failures events id := List.countP_append

theorem failures_of_quiet {events : List AttemptEvent} (h : ∀ e ∈ events, e.isFailure = false) (id : Uuid) :
    failures events id = 0 := by
  rw [failures, List.countP_eq_zero]
  intro e he
  simp [h e he]

theorem failures_singleton (id' : Uuid) : failures [.failed id now next] id' = if id = id' then 1 else 0 := by
  by_cases h : id = id'
  · simp [failures, AttemptEvent.isFailure, AttemptEvent.id, h]
  · simp [failures, AttemptEvent.isFailure, AttemptEvent.id, h]

/-- A log with a failure has a first one. -/
theorem first_failure (h : failures log id ≠ 0) :
    ∃ earlier now next later, log = earlier ++ .failed id now next :: later ∧ failures earlier id = 0 := by
  induction log with
  | nil => exact absurd rfl h
  | cons e log ih =>
    by_cases he : e.isFailure && e.id = id
    · obtain ⟨hf, hid⟩ := Bool.and_eq_true_iff.mp he
      cases e with
      | started id' now => cases hf
      | failed id' now next =>
        obtain rfl : id' = id := of_decide_eq_true hid
        exact ⟨[], now, next, log, rfl, rfl⟩
    · have hzero : failures [e] id = 0 := by simp [failures, he]
      have hrest : failures log id ≠ 0 := by
        rw [← List.singleton_append, failures_append] at h
        omega
      obtain ⟨earlier, now, next, later, rfl, hnone⟩ := ih hrest
      refine ⟨e :: earlier, now, next, later, rfl, ?_⟩
      rw [← List.singleton_append, failures_append]
      omega

theorem failures_ne_zero (h : log = earlier ++ .failed id now next :: later) : failures log id ≠ 0 := by
  have hone : failures [.failed id now next] id = 1 := by rw [failures_singleton, if_pos rfl]
  rw [h, ← List.singleton_append, failures_append, failures_append]
  omega

/-- An event of a longer log is one of the new events or one of the old log. -/
theorem split_append {events : List AttemptEvent} {e : AttemptEvent} (h : log ++ events = earlier ++ e :: later) :
    (∃ new, earlier = log ++ new ∧ events = new ++ e :: later) ∨ ∃ old, log = earlier ++ e :: old := by
  rcases List.append_eq_append_iff.mp h with ⟨new, he, hevents⟩ | ⟨old, hlog, he⟩
  · exact .inl ⟨new, he, hevents⟩
  · cases old with
    | nil => exact .inl ⟨[], by rw [hlog, List.append_nil, List.append_nil], he.symm⟩
    | cons e' old =>
      obtain ⟨rfl, -⟩ := List.cons.inj he
      exact .inr ⟨old, hlog⟩

end

/-! ## What a step adds to the log -/

section

variable {s t : Outbox} {p : Nat} {now : Int}

theorem findRow_of_mem {rows : List NotificationOutbox} {n : NotificationOutbox}
    (hk : (rows.map NotificationOutbox.id).Nodup) (hn : n ∈ rows) : findRow rows n.id = some n := by
  cases hf : findRow rows n.id with
  | none =>
    have := List.find?_eq_none.mp hf n hn
    simp at this
  | some m =>
    obtain ⟨hm, hid⟩ := findRow_eq_some hf
    rw [List.inj_on_of_nodup_map hk hm hn hid]

theorem findRow_updateRow {rows : List NotificationOutbox} {f : NotificationOutbox → NotificationOutbox} {id : Uuid}
    (hf : ∀ n, (f n).id = n.id) : findRow (updateRow rows id f) id = (findRow rows id).map f := by
  induction rows with
  | nil => rfl
  | cons n rows ih =>
    simp only [findRow, updateRow, List.map_cons, List.find?_cons] at ih ⊢
    by_cases hn : n.id = id
    · simp [hn, hf]
    · simp [hn, ih]

/-- A dispatch that fails stores the time at the counter that has gone up. -/
theorem failing_step {e : PyExc} (hi : OutboxInv s) (h : s.step (.dispatch p now (.error e)) = some t) :
    ∃ n ∈ s.rows, s.Dispatching p n.id ∧ t.fresh = s.fresh ∧ t.dispatches = s.dispatches ++ [(n.id, false)] ∧
      attemptEvents s t (.dispatch p now (.error e)) =
        [.failed n.id now (some (secondsAfter now (retryBackoffSeconds (n.retryCount + 1))))] := by
  obtain ⟨id, retries, hp, hs⟩ := step_dispatch h
  have hd : s.Dispatching p id := ⟨_, hp, rfl, rfl⟩
  obtain ⟨n, hn, rfl, -⟩ := hi.ready p id hd
  refine ⟨n, hn, hd, ?_, ?_, ?_⟩
  · rw [hs]
  · rw [hs]
    rfl
  · have hrow : findRow t.rows n.id = some (n.afterDispatch now (.error e)) := by
      rw [hs, findRow_updateRow fun m => m.id_afterDispatch now _, findRow_of_mem hi.keyed hn]
      rfl
    simp only [attemptEvents, hp, hrow]
    rfl

/-- Every other step leaves the failures alone; a row that comes in has none. -/
theorem quiet_step {l : OutboxStep} (h : s.step l = some t) (hl : ∀ p now e, l ≠ .dispatch p now (.error e)) :
    (∀ e ∈ attemptEvents s t l, e.isFailure = false) ∧
      (∀ id, (t.outcomes id).count false = (s.outcomes id).count false) ∧
        ∀ c ∈ t.fresh, c ∈ s.fresh ∨ c.id ∉ s.rows.map NotificationOutbox.id := by
  cases l with
  | create n =>
    obtain ⟨hn, rfl⟩ := step_create h
    refine ⟨fun e he => absurd he List.not_mem_nil, fun _ => rfl, fun c hc => ?_⟩
    by_cases hnew : n.status = .pending ∧ n.retryCount = 0
    · rcases List.mem_cons.mp ((if_pos hnew).subst (motive := (c ∈ ·)) hc) with rfl | hc
      · exact .inr hn
      · exact .inl hc
    · exact .inl ((if_neg hnew).subst (motive := (c ∈ ·)) hc)
  | pollSelect p now rows =>
    obtain ⟨-, -, -, -, rfl⟩ := step_pollSelect h
    exact ⟨fun e he => absurd he List.not_mem_nil, fun _ => rfl, fun c hc => .inl hc⟩
  | pollEnqueue p q now =>
    obtain ⟨-, -, -, -, rfl⟩ := step_pollEnqueue h
    exact ⟨fun e he => absurd he List.not_mem_nil, fun _ => rfl, fun c hc => .inl hc⟩
  | pollCommit p =>
    obtain ⟨-, rfl⟩ := step_pollCommit h
    exact ⟨fun e he => absurd he List.not_mem_nil, fun _ => rfl, fun c hc => .inl hc⟩
  | begin p now =>
    have hevents : ∀ e ∈ attemptEvents s t (.begin p now), e.isFailure = false := by
      intro e he
      simp only [attemptEvents] at he
      split at he
      · rw [List.mem_singleton.mp he]
        rfl
      · cases he
    obtain ⟨_, _, _, _, ⟨_, rfl⟩ | ⟨_, _, _, _, rfl | ⟨_, rfl⟩ | ⟨_, rfl⟩⟩⟩ := step_begin h
    · exact ⟨hevents, fun _ => rfl, fun c hc => .inl hc⟩
    · exact ⟨hevents, fun _ => rfl, fun c hc => .inl hc⟩
    · exact ⟨hevents, fun _ => rfl, fun c hc => .inl hc⟩
    · exact ⟨hevents, fun _ => rfl, fun c hc => .inl hc⟩
  | dispatch p now outcome =>
    cases outcome with
    | error e => exact absurd rfl (hl p now e)
    | ok =>
      obtain ⟨id, _, _, hs⟩ := step_dispatch h
      refine ⟨fun e he => absurd he List.not_mem_nil, fun m => ?_, fun c hc => .inl ?_⟩
      · rw [Outbox.outcomes_append (congrArg Outbox.dispatches hs), List.count_append]
        split <;> simp
      · rw [hs] at hc
        exact hc

end

/-! ## Runs -/

section

variable {s s' : TimedOutbox} {l : OutboxStep}

theorem timed_step (h : timedSystem.step s l = some s') :
    s.outbox.step l = some s'.outbox ∧ s'.log = s.log ++ attemptEvents s.outbox s'.outbox l := by
  simp only [timedSystem, TimedOutbox.step] at h
  split at h
  · obtain ⟨t, ht, rfl⟩ := Option.map_eq_some_iff.mp h
    exact ⟨ht, rfl⟩
  · cases h

/-- A row that comes in has no failures yet. -/
theorem TimedInv.failures_eq_zero (hi : TimedInv s) {id : Uuid} (h : id ∉ s.outbox.rows.map NotificationOutbox.id) :
    failures s.log id = 0 := by
  rw [hi.counted, hi.outbox.outcomes_eq_nil h, List.count_nil]

/-- The counter of a row that is dispatched is the number of its failures. -/
theorem TimedInv.retryCount_eq (hi : TimedInv s) {p : Nat} {n c : NotificationOutbox} (hn : n ∈ s.outbox.rows)
    (hd : s.outbox.Dispatching p n.id) (hc : c ∈ s.outbox.fresh) (hid : c.id = n.id) :
    n.retryCount = failures s.log n.id := by
  obtain ⟨m, hm, hmid, -, hmatch⟩ := hi.outbox.history c hc
  obtain rfl : m = n := List.inj_on_of_nodup_map hi.outbox.keyed hm hn (hmid.trans hid)
  obtain ⟨k, hk, hkid, hg⟩ := hi.outbox.ready p m.id hd
  obtain rfl : k = m := List.inj_on_of_nodup_map hi.outbox.keyed hk hm hkid
  have hsent := (NotificationOutbox.guard_eq_dispatch hg).1
  have hnonneg := hmatch.nonneg
  rw [hi.counted, ← hid, hmatch.outcomes_eq, if_neg hsent, List.append_nil, List.count_replicate_self]
  omega

/-- **Every step keeps the invariant.** -/
theorem TimedInv.step (hi : TimedInv s) (h : timedSystem.step s l = some s') : TimedInv s' := by
  obtain ⟨ht, hlog⟩ := timed_step h
  have hout : OutboxInv s'.outbox := hi.outbox.step ht
  by_cases hl : ∃ p now e, l = .dispatch p now (.error e)
  · obtain ⟨p, now, e, rfl⟩ := hl
    obtain ⟨n, hn, hd, hfresh, hdispatches, hevents⟩ := failing_step hi.outbox ht
    rw [hevents] at hlog
    refine ⟨hout, fun id => ?_, fun c hc earlier now' next later hsplit => ?_⟩
    · rw [hlog, failures_append, failures_singleton, hi.counted, Outbox.outcomes_append hdispatches,
        List.count_append]
      split <;> simp
    · rw [hfresh] at hc
      rcases split_append (hlog ▸ hsplit) with ⟨new, rfl, hnew⟩ | ⟨old, hold⟩
      · cases new with
        | nil =>
          obtain ⟨hid, rfl, rfl⟩ := AttemptEvent.failed.inj (List.cons.inj hnew).1
          rw [List.append_nil, ← hid, hi.retryCount_eq hn hd hc hid.symm]
        | cons e' new =>
          have hnil : [] = new ++ .failed c.id now' next :: later := (List.cons.inj hnew).2
          cases new <;> cases hnil
      · exact hi.stored c hc earlier now' next old hold
  · have hl' : ∀ p now e, l ≠ .dispatch p now (.error e) := fun p now e he => hl ⟨p, now, e, he⟩
    obtain ⟨hevents, hcount, hfresh⟩ := quiet_step ht hl'
    refine ⟨hout, fun id => ?_, fun c hc earlier now next later hsplit => ?_⟩
    · rw [hlog, failures_append, failures_of_quiet hevents, hi.counted, hcount, Nat.add_zero]
    · rcases split_append (hlog ▸ hsplit) with ⟨new, -, hnew⟩ | ⟨old, hold⟩
      · have hmem : AttemptEvent.failed c.id now next ∈ attemptEvents s.outbox s'.outbox l := by
          rw [hnew]
          exact List.mem_append_right _ List.mem_cons_self
        cases hevents _ hmem
      · rcases hfresh c hc with hc | hc
        · exact hi.stored c hc earlier now next old hold
        · exact absurd (hi.failures_eq_zero hc) (failures_ne_zero hold)

theorem timedInv_empty : TimedInv .empty where
  outbox := outboxInv_empty
  counted := fun _ => rfl
  stored := fun _ hc => absurd hc List.not_mem_nil

/-- A state keeps the documented backoff exactly when no notification has failed: the first failure stores 120 seconds
and not 60. -/
theorem backoffRespected_iff_failures (hi : TimedInv s) :
    BackoffRespected s ↔ ∀ c ∈ s.outbox.fresh, failures s.log c.id = 0 := by
  constructor
  · rintro ⟨hdelays, -⟩ c hc
    by_contra hne
    obtain ⟨earlier, now, next, later, hlog, hnone⟩ := first_failure hne
    have hdoc := hdelays c hc earlier now next later hlog (by omega)
    have hstored := hi.stored c hc earlier now next later hlog
    rw [hnone] at hdoc hstored
    have heq : secondsAfter now 60 = secondsAfter now 120 := Option.some.inj (hdoc.symm.trans hstored)
    simp only [secondsAfter] at heq
    omega
  · intro hnone
    exact ⟨fun c hc _ _ _ _ hlog => absurd (hnone c hc) (failures_ne_zero hlog),
      fun c hc _ _ _ _ hlog => absurd (hnone c hc) (failures_ne_zero hlog)⟩

/-- A step keeps the backoff exactly when it is no dispatch that fails. -/
theorem backoffRespected_step (hi : TimedInv s) (hp : BackoffRespected s) (h : timedSystem.step s l = some s') :
    TimedInv s' ∧ (BackoffRespected s' ↔ DispatchSucceeds s l) := by
  have hi' := hi.step h
  refine ⟨hi', ?_⟩
  rw [backoffRespected_iff_failures hi']
  have hnone := (backoffRespected_iff_failures hi).mp hp
  obtain ⟨ht, hlog⟩ := timed_step h
  by_cases hl : ∃ p now e, l = .dispatch p now (.error e)
  · obtain ⟨p, now, e, rfl⟩ := hl
    obtain ⟨n, hn, hd, hfresh, -, hevents⟩ := failing_step hi.outbox ht
    rw [hfresh, hlog, hevents]
    constructor
    · rintro hzero c hc ⟨d, hd', hid, -⟩
      obtain ⟨d', hd, hid', -⟩ := hd
      obtain rfl := Option.some.inj (hd.symm.trans hd')
      have hone := hzero c hc
      rw [failures_append, failures_singleton, if_pos (hid'.symm.trans hid)] at hone
      omega
    · intro hother c hc
      rw [failures_append, failures_singleton, hnone c hc, if_neg fun hid : n.id = c.id => hother c hc (hid ▸ hd)]
  · have hl' : ∀ p now e, l ≠ .dispatch p now (.error e) := fun p now e he => hl ⟨p, now, e, he⟩
    obtain ⟨hevents, -, hfresh⟩ := quiet_step ht hl'
    have hok : DispatchSucceeds s l := by
      cases l with
      | dispatch p now outcome =>
        cases outcome with
        | ok => trivial
        | error e => exact absurd rfl (hl' p now e)
      | _ => trivial
    refine iff_of_true (fun c hc => ?_) hok
    rw [hlog, failures_append, failures_of_quiet hevents, Nat.add_zero]
    rcases hfresh c hc with hc | hc
    · exact hnone c hc
    · exact hi.failures_eq_zero hc

/-- **In every run of polls, deliveries and retries, the documented backoff is kept exactly as long as no dispatch of a
notification fails.** -/
theorem backoffRespected_iff (ls : List OutboxStep) :
    timedSystem.Always BackoffRespected .empty ls ↔ timedSystem.Each DispatchSucceeds .empty ls :=
  System.always_iff_each backoffRespected_step timedInv_empty
    ⟨fun _ hc => absurd hc List.not_mem_nil, fun _ hc => absurd hc List.not_mem_nil⟩

end

/-- A poll, a dispatch that fails after a second, and the retry of the task as soon as its countdown is over. -/
def OutboxSample.failing : List OutboxStep :=
  .create row :: poll 0 2 0 ++
    [.begin 2 0, .dispatch 2 1000000 (raise .osError "timed out".toList), .begin 2 61000000]

/-- The failure stores a time 120 seconds later, and the next attempt starts after 60 seconds. -/
theorem retry_before_backoff :
    ¬ (∀ (s : TimedOutbox) (ls : List OutboxStep), timedSystem.run .empty ls = some s → DelaysDocumented s) ∧
      ¬ ∀ (s : TimedOutbox) (ls : List OutboxStep), timedSystem.run .empty ls = some s → WaitsForRetry s := by
  have hrun : (timedSystem.run .empty OutboxSample.failing).map (fun s => (s.outbox.fresh, s.log)) =
      some ([OutboxSample.row], [.started OutboxSample.row.id 0,
        .failed OutboxSample.row.id 1000000 (some 121000000), .started OutboxSample.row.id 61000000]) := by
    decide
  obtain ⟨s, hs, heq⟩ := Option.map_eq_some_iff.mp hrun
  obtain ⟨hfresh, hlog⟩ := Prod.mk.inj heq
  have hrow : OutboxSample.row ∈ s.outbox.fresh := hfresh ▸ List.mem_singleton_self _
  constructor
  · intro h
    have hdelay := h s _ hs _ hrow [_] _ _ [_] hlog (by decide)
    exact absurd hdelay (by decide)
  · intro h
    obtain ⟨due, hdue, hle⟩ := h s _ hs _ hrow [_] _ _ [_] hlog 61000000 (by decide)
    obtain rfl := Option.some.inj hdue
    exact absurd hle (by decide)

end ComplianceLoop
