import ComplianceLoop.Workers.Outstanding

/-!
# Workers that stop

A worker may stop at any moment. The transaction that it was in is rolled back, which releases its locks, and as tasks
are acknowledged late (`task_acks_late`, `task_reject_on_worker_lost`) the message of its delivery comes back. A
dispatch may have ended by then, but nothing says so. It also comes back when the transaction was committed and the
worker stops before the acknowledgement; by then a retry may have been sent already. A message that waits for too long
is discarded.

`ended` is how the dispatches really ended, `lost` how far they were when their worker stopped. What is written back
still satisfies `OutboxInv`, since a crash writes nothing; so the rows account for every dispatch but those of the
crashes (`accounted_run`).
-/

set_option autoImplicit false

namespace ComplianceLoop

open PyLib Transition

/-- The outbox, and what the workers have done that it does not show. -/
structure WorkerPool where
  outbox : Outbox
  ended : List (Uuid × Bool)
  lost : List (Uuid × Option Bool)

inductive WorkerStep where
  | step (l : OutboxStep)
  /-- The worker of a dispatch stops; the dispatch has ended so, or has not. -/
  | crash (p : Nat) (now : Int) (outcome : Option Bool)
  /-- The worker of a delivery stops after the commit of its step, and its message comes back with this number. -/
  | unacked (l : OutboxStep) (q : Nat) (now : Int)
  /-- The worker of a poll stops. -/
  | pollCrash (p : Nat)
  /-- A message is discarded. -/
  | discard (p : Nat)

/-- The task whose step this is. -/
def OutboxStep.task : OutboxStep → Option Nat
  | .begin p _ => some p
  | .dispatch p _ _ => some p
  | _ => none

/-- The message of a task is there again; `none` where its number is taken. -/
def Outbox.comeBack (o : Outbox) (p q : Nat) (d : Delivery) (now : Int) : Option Outbox :=
  if (o.tasks p).all (·.phase ≠ .running) ∧ (q = p ∨ o.isIdle q = true) then
    some { o with tasks := Function.update o.tasks q (some ⟨d.notification, d.retries, .waiting now⟩) }
  else none

namespace WorkerPool

def empty : WorkerPool := ⟨.empty, [], []⟩

/-- What ends with a step. -/
def endedBy (s : Outbox) : OutboxStep → List (Uuid × Bool)
  | .dispatch p _ outcome => ((s.tasks p).map fun d => (d.notification, returned outcome)).toList
  | _ => []

/-- One step; `none` where it is not possible or has to wait. -/
def step (s : WorkerPool) : WorkerStep → Option WorkerPool
  | .step l => (s.outbox.step l).map fun outbox => { s with outbox := outbox, ended := s.ended ++ endedBy s.outbox l }
  | .crash p now outcome =>
    match s.outbox.tasks p with
    | some ⟨id, retries, .running⟩ =>
      some
        { outbox := { s.outbox with
            locks := s.outbox.locks.release p
            tasks := Function.update s.outbox.tasks p (some ⟨id, retries, .waiting now⟩) }
          ended := s.ended ++ (outcome.map (id, ·)).toList
          lost := s.lost ++ [(id, outcome)] }
    | _ => none
  | .unacked l q now =>
    l.task.bind fun p => (s.outbox.tasks p).bind fun d => (s.outbox.step l).bind fun o =>
      (o.comeBack p q d now).map fun outbox =>
        { s with outbox := outbox, ended := s.ended ++ endedBy s.outbox l }
  | .pollCrash p =>
    match s.outbox.polls p with
    | some _ =>
      some { s with
        outbox := { s.outbox with
          locks := s.outbox.locks.release p
          polls := Function.update s.outbox.polls p none } }
    | none => none
  | .discard p =>
    match s.outbox.tasks p with
    | some ⟨_, _, .waiting _⟩ =>
      some { s with outbox := { s.outbox with tasks := Function.update s.outbox.tasks p none } }
    | _ => none

end WorkerPool

/-- Polls and deliveries whose workers may stop. -/
def workerSystem : System WorkerPool WorkerStep := ⟨WorkerPool.step⟩

/-! ## What a step does -/

section

variable {s s' : WorkerPool} {p : Nat} {now : Int} {id : Uuid}

theorem step_step {l : OutboxStep} (h : s.step (.step l) = some s') :
    ∃ outbox, s.outbox.step l = some outbox ∧
      s' = { s with outbox := outbox, ended := s.ended ++ WorkerPool.endedBy s.outbox l } := by
  obtain ⟨outbox, ho, rfl⟩ := Option.map_eq_some_iff.mp h
  exact ⟨outbox, ho, rfl⟩

theorem step_crash {outcome : Option Bool} (h : s.step (.crash p now outcome) = some s') :
    ∃ id retries, s.outbox.tasks p = some ⟨id, retries, .running⟩ ∧
      s' =
        { outbox := { s.outbox with
            locks := s.outbox.locks.release p
            tasks := Function.update s.outbox.tasks p (some ⟨id, retries, .waiting now⟩) }
          ended := s.ended ++ (outcome.map (id, ·)).toList
          lost := s.lost ++ [(id, outcome)] } := by
  rw [WorkerPool.step] at h
  split at h
  · rename_i id retries hp
    exact ⟨id, retries, hp, (Option.some.inj h).symm⟩
  · cases h

theorem step_unacked {l : OutboxStep} {q : Nat} (h : s.step (.unacked l q now) = some s') :
    ∃ p d o, TaskStep s.outbox o p d ∧ s.outbox.step l = some o ∧ (∀ t, o.tasks p = some t → t.phase ≠ .running) ∧
      (q = p ∨ o.isIdle q = true) ∧
        s' = { s with
          outbox := { o with tasks := Function.update o.tasks q (some ⟨d.notification, d.retries, .waiting now⟩) }
          ended := s.ended ++ WorkerPool.endedBy s.outbox l } := by
  obtain ⟨p, hp, h⟩ := Option.bind_eq_some_iff.mp h
  obtain ⟨d, hd, h⟩ := Option.bind_eq_some_iff.mp h
  obtain ⟨o, ho, h⟩ := Option.bind_eq_some_iff.mp h
  obtain ⟨outbox, hback, rfl⟩ := Option.map_eq_some_iff.mp h
  have htask : ∃ d, TaskStep s.outbox o p d := by
    cases l with
    | begin r now =>
      obtain rfl := Option.some.inj hp
      exact taskStep_begin ho
    | dispatch r now outcome =>
      obtain rfl := Option.some.inj hp
      exact taskStep_dispatch ho
    | _ => cases hp
  obtain ⟨d', hd'⟩ := htask
  obtain rfl := Option.some.inj (hd.symm.trans hd'.before)
  rw [Outbox.comeBack] at hback
  split at hback
  · rename_i hfree
    refine ⟨p, d, o, hd', ho, fun t ht => ?_, hfree.2, ?_⟩
    · have hall := hfree.1
      rw [ht] at hall
      exact of_decide_eq_true hall
    · rw [← Option.some.inj hback]
  · cases hback

theorem step_pollCrash (h : s.step (.pollCrash p) = some s') :
    s.outbox.polls p ≠ none ∧
      s' = { s with
        outbox := { s.outbox with
          locks := s.outbox.locks.release p
          polls := Function.update s.outbox.polls p none } } := by
  rw [WorkerPool.step] at h
  split at h
  · rename_i ids hp
    exact ⟨hp ▸ Option.some_ne_none ids, (Option.some.inj h).symm⟩
  · cases h

theorem step_discard (h : s.step (.discard p) = some s') :
    ∃ id retries eta, s.outbox.tasks p = some ⟨id, retries, .waiting eta⟩ ∧
      s' = { s with outbox := { s.outbox with tasks := Function.update s.outbox.tasks p none } } := by
  rw [WorkerPool.step] at h
  split at h
  · rename_i id retries eta hp
    exact ⟨id, retries, eta, hp, (Option.some.inj h).symm⟩
  · cases h

/-! ## The rows are kept -/

/-- A task that goes back to waiting, or away, leaves the rows and what holds of the others. -/
theorem OutboxInv.dropped {o : Outbox} (hi : OutboxInv o) {d : Delivery} (hp : o.tasks p = some d)
    {t : Option Delivery} (ht : ∀ d, t = some d → d.phase ≠ .running) {L : LockTable Uuid}
    (hL : ∀ k q, q ≠ p → o.locks.Holds k q → L.Holds k q) :
    OutboxInv { o with locks := L, tasks := Function.update o.tasks p t } := by
  have hrun : ∀ {q m}, Outbox.Dispatching { o with locks := L, tasks := Function.update o.tasks p t } q m →
      q ≠ p ∧ o.Dispatching q m := fun hq => hq.of_quiet rfl ht
  exact ⟨hi.keyed, hi.logged, hi.history, hi.apart_update hp t,
    fun q m hq => hL m q (hrun hq).1 (hi.locked q m (hrun hq).2), fun q m hq => hi.ready q m (hrun hq).2⟩

/-- A message that comes back to a number that is free, or that of its task. -/
theorem OutboxInv.comeBack {o : Outbox} (hi : OutboxInv o) {d : Delivery} (hpolls : o.polls p = none)
    (hd : d.phase ≠ .running) :
    OutboxInv { o with tasks := Function.update o.tasks p (some d) } := by
  have hrun : ∀ {q m}, Outbox.Dispatching { o with tasks := Function.update o.tasks p (some d) } q m →
      o.Dispatching q m := fun hq => (hq.of_quiet rfl fun t ht => Option.some.inj ht ▸ hd).2
  refine ⟨hi.keyed, hi.logged, hi.history, fun q hq => ?_, fun q m hq => hi.locked q m (hrun hq),
    fun q m hq => hi.ready q m (hrun hq)⟩
  have hne : q ≠ p := fun he => hq (he ▸ hpolls)
  exact (Function.update_of_ne hne _ _).trans (hi.apart q hq)

/-- The number of a message that comes back is not that of a poll. -/
theorem TaskStep.polls_none {o o' : Outbox} {d : Delivery} {q : Nat} (hi : OutboxInv o) (h : TaskStep o o' p d)
    (hq : q = p ∨ o'.isIdle q = true) : o'.polls q = none := by
  rcases hq with rfl | hq
  · rw [h.polls]
    by_contra hpoll
    cases h.before.symm.trans (hi.apart q hpoll)
  · exact (Outbox.isIdle_iff.mp hq).2

/-- A poll that stops was no task. -/
theorem OutboxInv.pollDropped {o : Outbox} (hi : OutboxInv o) (hp : o.polls p ≠ none) :
    OutboxInv { o with locks := o.locks.release p, polls := Function.update o.polls p none } := by
  have hnone : o.tasks p = none := hi.apart p hp
  refine ⟨hi.keyed, hi.logged, hi.history, fun q hq => ?_, fun q m hq => ?_, hi.ready⟩
  · have hne : q ≠ p := fun he => hq (he ▸ Function.update_self _ _ _)
    exact hi.apart q fun hn => hq ((Function.update_of_ne hne _ _).trans hn)
  · refine LockTable.holds_release.mpr ⟨hi.locked q m hq, ?_⟩
    rintro rfl
    obtain ⟨t, ht, -⟩ := hq
    rw [hnone] at ht
    cases ht

/-- **Whatever stops, what is written back is what it was.** -/
theorem outboxInv_workerStep {l : WorkerStep} (hi : OutboxInv s.outbox) (h : workerSystem.step s l = some s') :
    OutboxInv s'.outbox := by
  cases l with
  | step l =>
    obtain ⟨o, ho, rfl⟩ := step_step h
    exact hi.step ho
  | crash p now outcome =>
    obtain ⟨id, retries, hp, rfl⟩ := step_crash h
    exact hi.dropped hp (fun d hd => Option.some.inj hd ▸ DeliveryPhase.noConfusion)
      fun k q hq hk => LockTable.holds_release.mpr ⟨hk, hq⟩
  | unacked l q now =>
    obtain ⟨p, d, o, hd, ho, -, hq, rfl⟩ := step_unacked h
    exact (hi.step ho).comeBack (hd.polls_none hi hq) DeliveryPhase.noConfusion
  | pollCrash p =>
    obtain ⟨hp, rfl⟩ := step_pollCrash h
    exact hi.pollDropped hp
  | discard p =>
    obtain ⟨id, retries, eta, hp, rfl⟩ := step_discard h
    have hdone : ∀ d : Delivery, none = some d → d.phase ≠ .running := fun d hd => nomatch hd
    exact hi.dropped hp hdone fun _ _ _ hk => hk

/-! ## What the rows do not show -/

/-- A dispatch that has ended is written back, or its worker stopped. -/
def Balanced (s : WorkerPool) : Prop :=
  ∀ id b, s.ended.count (id, b) = s.outbox.dispatches.count (id, b) + s.lost.count (id, some b)

theorem endedBy_eq {l : OutboxStep} {o o' : Outbox} (h : o.step l = some o') :
    o'.dispatches = o.dispatches ++ WorkerPool.endedBy o l := by
  cases l with
  | create n =>
    obtain ⟨-, rfl⟩ := step_create h
    exact (List.append_nil _).symm
  | pollSelect p now rows =>
    obtain ⟨-, -, -, -, rfl⟩ := step_pollSelect h
    exact (List.append_nil _).symm
  | pollEnqueue p q now =>
    obtain ⟨-, -, -, -, rfl⟩ := step_pollEnqueue h
    exact (List.append_nil _).symm
  | pollCommit p =>
    obtain ⟨-, rfl⟩ := step_pollCommit h
    exact (List.append_nil _).symm
  | begin p now =>
    obtain ⟨-, -, -, -, ⟨-, rfl⟩ | ⟨-, -, -, -, rfl | ⟨-, rfl⟩ | ⟨-, rfl⟩⟩⟩ := step_begin h
    · exact (List.append_nil _).symm
    · exact (List.append_nil _).symm
    · exact (List.append_nil _).symm
    · exact (List.append_nil _).symm
  | dispatch p now outcome =>
    obtain ⟨id, retries, hp, rfl⟩ := step_dispatch h
    rw [WorkerPool.endedBy, hp]
    rfl

theorem Balanced.step {l : WorkerStep} (hb : Balanced s) (h : workerSystem.step s l = some s') : Balanced s' := by
  intro id b
  have hid := hb id b
  have hstep : ∀ {l o}, s.outbox.step l = some o → (s.ended ++ WorkerPool.endedBy s.outbox l).count (id, b) =
      o.dispatches.count (id, b) + s.lost.count (id, some b) := by
    intro l o ho
    rw [endedBy_eq ho, List.count_append, List.count_append, hid]
    omega
  cases l with
  | step l =>
    obtain ⟨o, ho, rfl⟩ := step_step h
    exact hstep ho
  | unacked l q now =>
    obtain ⟨p, d, o, -, ho, -, -, rfl⟩ := step_unacked h
    have hcount := hstep ho
    exact hcount
  | crash p now outcome =>
    obtain ⟨m, retries, -, rfl⟩ := step_crash h
    have hcrash : (outcome.map (m, ·)).toList.count (id, b) = [(m, outcome)].count (id, some b) := by
      cases outcome with
      | none => simp
      | some c => simp [List.count_singleton]
    show (s.ended ++ (outcome.map (m, ·)).toList).count (id, b) =
      s.outbox.dispatches.count (id, b) + (s.lost ++ [(m, outcome)]).count (id, some b)
    rw [List.count_append, List.count_append, hid, hcrash]
    omega
  | pollCrash p =>
    obtain ⟨-, rfl⟩ := step_pollCrash h
    exact hid
  | discard p =>
    obtain ⟨-, -, -, -, rfl⟩ := step_discard h
    exact hid

theorem balanced_empty : Balanced .empty := fun _ _ => rfl

/-! ## Runs -/

/-- A row accounts for its dispatches, but for those whose worker stopped. -/
structure Accounted (s : WorkerPool) (n : NotificationOutbox) : Prop where
  delivered : s.ended.count (n.id, true) = s.lost.count (n.id, some true) + if n.status = .sent then 1 else 0
  failed : (s.ended.count (n.id, false) : Int) = s.lost.count (n.id, some false) + n.retryCount
  bounded : n.retryCount + (if n.status = .sent then 1 else 0) ≤ max n.maxRetries 0
  nonneg : 0 ≤ n.retryCount

theorem count_outcomes (o : Outbox) (id : Uuid) (b : Bool) : (o.outcomes id).count b = o.dispatches.count (id, b) := by
  rw [Outbox.outcomes]
  induction o.dispatches with
  | nil => rfl
  | cons d ds ih =>
    rw [List.filter_cons, List.count_cons]
    by_cases hd : d.1 = id
    · rw [decide_eq_true hd, if_pos rfl, List.map_cons, List.count_cons, ih]
      simp [Prod.ext_iff, hd]
    · rw [decide_eq_false hd, if_neg Bool.false_ne_true, ih]
      simp [Prod.ext_iff, hd]

/-- What has been written back accounts for what has been recorded. -/
theorem NotificationOutbox.Matches.count {n : NotificationOutbox} {outcomes : List Bool} (h : n.Matches outcomes) :
    outcomes.count true = (if n.status = .sent then 1 else 0) ∧ (outcomes.count false : Int) = n.retryCount ∧
      n.retryCount + (if n.status = .sent then 1 else 0) ≤ max n.maxRetries 0 := by
  have hnonneg := h.nonneg
  have hbounded := h.bounded
  rw [h.outcomes_eq] at hbounded ⊢
  rw [List.length_append, List.length_replicate] at hbounded
  rw [List.count_append, List.count_append, List.count_replicate_self, List.count_replicate]
  by_cases hs : n.status = .sent
  · rw [if_pos hs] at hbounded ⊢
    rw [List.length_singleton] at hbounded
    refine ⟨by simp [hs], by simp; omega, ?_⟩
    rw [if_pos hs]
    omega
  · rw [if_neg hs] at hbounded ⊢
    rw [List.length_nil] at hbounded
    refine ⟨by simp [hs], by simp; omega, ?_⟩
    rw [if_neg hs]
    omega

theorem mem_fresh_workerStep {l : WorkerStep} {c : NotificationOutbox} (hc : c ∈ s.outbox.fresh)
    (h : workerSystem.step s l = some s') : c ∈ s'.outbox.fresh := by
  cases l with
  | step l =>
    obtain ⟨o, ho, rfl⟩ := step_step h
    exact mem_fresh_step hc ho
  | crash p now outcome =>
    obtain ⟨-, -, -, rfl⟩ := step_crash h
    exact hc
  | unacked l q now =>
    obtain ⟨p, d, o, -, ho, -, -, rfl⟩ := step_unacked h
    have hmem := mem_fresh_step hc ho
    exact hmem
  | pollCrash p =>
    obtain ⟨-, rfl⟩ := step_pollCrash h
    exact hc
  | discard p =>
    obtain ⟨-, -, -, -, rfl⟩ := step_discard h
    exact hc

theorem mem_fresh_workerRun {ls : List WorkerStep} {c : NotificationOutbox} (hstatus : c.status = .pending)
    (hcount : c.retryCount = 0) (hc : c ∈ s.outbox.fresh ∨ .step (.create c) ∈ ls)
    (hrun : workerSystem.run s ls = some s') : c ∈ s'.outbox.fresh := by
  induction ls generalizing s with
  | nil =>
    obtain rfl := Option.some.inj hrun
    exact hc.resolve_right List.not_mem_nil
  | cons l ls ih =>
    obtain ⟨t, ht, hrun⟩ := System.run_cons_eq_some.mp hrun
    refine ih ?_ hrun
    rcases hc with hc | hc
    · exact .inl (mem_fresh_workerStep hc ht)
    · rcases List.mem_cons.mp hc with rfl | hc
      · obtain ⟨o, ho, rfl⟩ := step_step ht
        obtain ⟨-, rfl⟩ := step_create ho
        left
        show c ∈ if c.status = .pending ∧ c.retryCount = 0 then c :: s.outbox.fresh else s.outbox.fresh
        rw [if_pos ⟨hstatus, hcount⟩]
        exact List.mem_cons_self
      · exact .inr hc

/-- **Whenever workers stop, a row that came in pending and without attempts was delivered once if it is `SENT`, and
besides exactly as often as a worker stopped after a dispatch that had succeeded; its attempts are counted
likewise.** -/
theorem accounted_run {ls : List WorkerStep} (hrun : workerSystem.run .empty ls = some s) {c : NotificationOutbox}
    (hc : .step (.create c) ∈ ls) (hstatus : c.status = .pending) (hcount : c.retryCount = 0) :
    ∃ n ∈ s.outbox.rows, n.id = c.id ∧ n.maxRetries = c.maxRetries ∧ Accounted s n := by
  have hi : OutboxInv s.outbox :=
    System.invariant_run (I := fun s => OutboxInv s.outbox) outboxInv_workerStep outboxInv_empty hrun
  have hb : Balanced s := System.invariant_run Balanced.step balanced_empty hrun
  obtain ⟨n, hn, hid, hmax, hm⟩ := hi.history c (mem_fresh_workerRun hstatus hcount (.inr hc) hrun)
  obtain ⟨htrue, hfalse, hbounded⟩ := hm.count
  rw [count_outcomes, ← hid] at htrue hfalse
  have hdelivered := hb n.id true
  have hfailed := hb n.id false
  exact ⟨n, hn, hid, hmax, by omega, by omega, hbounded, hm.nonneg⟩

end

namespace WorkerSample

/-- The row, its poll and the start of its task. -/
def started : List WorkerStep :=
  (.create OutboxSample.row :: (OutboxSample.poll 0 2 0 ++ [.begin 2 0])).map .step

/-- The worker stops when the notification is sent, and the message comes back. -/
def crashed : List WorkerStep :=
  started ++ [.crash 2 1 (some true), .step (.begin 2 1), .step (.dispatch 2 2 (.ok ()))]

/-- The message comes back and is discarded, and another poll stops. -/
def stopped : List WorkerStep :=
  started ++ [.crash 2 1 none, .discard 2, .step (.pollSelect 1 60000000 [OutboxSample.row]), .pollCrash 1]

end WorkerSample

/-- The row is delivered twice. -/
theorem accounted_run_crashed :
    ∃ s n, workerSystem.run .empty WorkerSample.crashed = some s ∧ s.ended.count (OutboxSample.row.id, true) = 2 ∧
      n ∈ s.outbox.rows ∧ n.id = OutboxSample.row.id ∧ Accounted s n := by
  have hrun : (workerSystem.run .empty WorkerSample.crashed).map (fun s => s.ended.count (OutboxSample.row.id, true)) =
      some 2 := by
    decide
  obtain ⟨s, hs, hcount⟩ := Option.map_eq_some_iff.mp hrun
  obtain ⟨n, hn, hid, -, haccounted⟩ := accounted_run (c := OutboxSample.row) hs List.mem_cons_self rfl rfl
  exact ⟨s, n, hs, hcount, hn, hid, haccounted⟩

end ComplianceLoop
