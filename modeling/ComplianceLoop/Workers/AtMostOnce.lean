import ComplianceLoop.Workers.Outbox

/-!
# Delivery at most once

`dispatches` is the history of the dispatches. For a row that came in pending and without attempts it is as many
failures as `retry_count` says and, if the row is `SENT`, one success after them (`Matches`); a task that is dispatching
holds the lock of its row, and the row still passes the checks. Each step keeps this (`OutboxInv.step`), so a
notification is delivered at most once, in at most `max_retries` attempts (`delivered_at_most_once`).
-/

set_option autoImplicit false

namespace ComplianceLoop

open PyLib Transition

/-- The row says what has come of its dispatches. -/
structure NotificationOutbox.Matches (n : NotificationOutbox) (outcomes : List Bool) : Prop where
  nonneg : 0 ≤ n.retryCount
  outcomes_eq : outcomes = List.replicate n.retryCount.toNat false ++ if n.status = .sent then [true] else []
  bounded : (outcomes.length : Int) ≤ max n.maxRetries 0

/-- What holds between the steps of polls and deliveries. -/
structure OutboxInv (s : Outbox) : Prop where
  keyed : (s.rows.map NotificationOutbox.id).Nodup
  logged : ∀ d ∈ s.dispatches, d.1 ∈ s.rows.map NotificationOutbox.id
  history : ∀ c ∈ s.fresh, ∃ n ∈ s.rows, n.id = c.id ∧ n.maxRetries = c.maxRetries ∧ n.Matches (s.outcomes c.id)
  apart : ∀ p, s.polls p ≠ none → s.tasks p = none
  locked : ∀ p id, s.Dispatching p id → s.locks.Holds id p
  ready : ∀ p id, s.Dispatching p id → ∃ n ∈ s.rows, n.id = id ∧ n.guard = .dispatch

/-! ## The rows and the history -/

namespace NotificationOutbox

variable {n : NotificationOutbox} {outcomes : List Bool}

/-- A row that comes in pending and without attempts. -/
theorem matches_new (hs : n.status = .pending) (hr : n.retryCount = 0) : n.Matches [] where
  nonneg := by rw [hr]
  outcomes_eq := by rw [hr, hs]; rfl
  bounded := Int.le_max_right n.maxRetries 0

/-- Giving up is no dispatch. -/
theorem Matches.exhaust (h : n.Matches outcomes) (hg : n.guard = .exhausted) : n.exhaust.Matches outcomes where
  nonneg := h.nonneg
  outcomes_eq := by
    rw [h.outcomes_eq, if_neg (guard_eq_exhausted hg)]
    rfl
  bounded := h.bounded

/-- A dispatch that the checks let through. -/
theorem Matches.afterDispatch (h : n.Matches outcomes) (hg : n.guard = .dispatch) (now : Int)
    (outcome : Except PyExc Unit) : (n.afterDispatch now outcome).Matches (outcomes ++ [returned outcome]) := by
  obtain ⟨hsent, -, hlt⟩ := guard_eq_dispatch hg
  have hnonneg := h.nonneg
  have houtcomes : outcomes = List.replicate n.retryCount.toNat false := by
    rw [h.outcomes_eq, if_neg hsent, List.append_nil]
  have hbound : ((outcomes ++ [returned outcome]).length : Int) ≤ max n.maxRetries 0 := by
    rw [houtcomes, List.length_append, List.length_replicate, List.length_singleton]
    omega
  cases outcome with
  | ok =>
    refine ⟨hnonneg, ?_, hbound⟩
    rw [houtcomes]
    rfl
  | error e =>
    have hstatus : (n.afterDispatch now (.error e)).status ≠ .sent := by
      show (if n.maxRetries ≤ n.retryCount + 1 then NotificationStatus.failed else n.status) ≠ .sent
      split
      · exact NotificationStatus.noConfusion
      · exact hsent
    refine ⟨?_, ?_, ?_⟩
    · show 0 ≤ n.retryCount + 1
      omega
    · show outcomes ++ [false] = List.replicate (n.retryCount + 1).toNat false ++ _
      rw [if_neg hstatus, List.append_nil, Int.toNat_add hnonneg (by decide), houtcomes]
      exact List.replicate_succ'.symm
    · rw [maxRetries_afterDispatch]
      exact hbound

end NotificationOutbox

section

variable {s s' : Outbox} {p q : Nat} {now : Int} {id m : Uuid}

theorem Outbox.outcomes_append {b : Bool} (h : s'.dispatches = s.dispatches ++ [(id, b)]) :
    s'.outcomes m = s.outcomes m ++ if id = m then [b] else [] := by
  rw [Outbox.outcomes, Outbox.outcomes, h, List.filter_append, List.map_append]
  congr 1
  by_cases hm : id = m
  · rw [if_pos hm, List.filter_singleton, decide_eq_true hm]
    rfl
  · rw [if_neg hm, List.filter_singleton, decide_eq_false hm]
    rfl

/-- A row that came in just now has no dispatch. -/
theorem OutboxInv.outcomes_eq_nil (hi : OutboxInv s) (h : id ∉ s.rows.map NotificationOutbox.id) :
    s.outcomes id = [] := by
  rw [Outbox.outcomes, List.map_eq_nil_iff, List.filter_eq_nil_iff]
  intro d hd he
  apply h
  rw [← of_decide_eq_true he]
  exact hi.logged d hd

/-- Who is dispatching when one task has changed. -/
theorem Outbox.Dispatching.of_update {t : Option Delivery} (htasks : s'.tasks = Function.update s.tasks p t)
    (h : s'.Dispatching q id) :
    q = p ∧ (∃ d, t = some d ∧ d.notification = id ∧ d.phase = .running) ∨ q ≠ p ∧ s.Dispatching q id := by
  obtain ⟨d, hd, hid, hrun⟩ := h
  rw [htasks] at hd
  rcases update_eq_some hd with ⟨hq, hd⟩ | ⟨hq, hd⟩
  · exact .inl ⟨hq, d, hd, hid, hrun⟩
  · exact .inr ⟨hq, d, hd, hid, hrun⟩

/-- Only the other tasks are dispatching after a step that leaves a task waiting or done. -/
theorem Outbox.Dispatching.of_quiet {t : Option Delivery} (htasks : s'.tasks = Function.update s.tasks p t)
    (ht : ∀ d, t = some d → d.phase ≠ .running) (h : s'.Dispatching q id) : q ≠ p ∧ s.Dispatching q id := by
  refine (h.of_update htasks).resolve_left ?_
  rintro ⟨-, d, hd, -, hrun⟩
  exact ht d hd hrun

/-! ## One step -/

/-- A row comes in. -/
theorem OutboxInv.create {n : NotificationOutbox} (hi : OutboxInv s) (h : s.step (.create n) = some s') :
    OutboxInv s' := by
  obtain ⟨hn, rfl⟩ := step_create h
  have hids : (s.rows ++ [n]).map NotificationOutbox.id = s.rows.map NotificationOutbox.id ++ [n.id] :=
    List.map_append
  refine ⟨?_, fun d hd => ?_, fun c hc => ?_, hi.apart, hi.locked, fun p id hp => ?_⟩
  · rw [hids]
    exact List.nodup_append.mpr ⟨hi.keyed, List.nodup_singleton _, fun m hm k hk he =>
      hn (List.mem_singleton.mp hk ▸ he ▸ hm)⟩
  · rw [hids]
    exact List.mem_append_left _ (hi.logged d hd)
  · have hold : c ∈ s.fresh → ∃ m ∈ s.rows ++ [n], m.id = c.id ∧ m.maxRetries = c.maxRetries ∧
        m.Matches (s.outcomes c.id) := by
      intro hc
      obtain ⟨m, hm, hrest⟩ := hi.history c hc
      exact ⟨m, List.mem_append_left _ hm, hrest⟩
    by_cases hnew : n.status = .pending ∧ n.retryCount = 0
    · rw [if_pos hnew] at hc
      rcases List.mem_cons.mp hc with rfl | hc
      · refine ⟨c, List.mem_append_right _ (List.mem_singleton_self c), rfl, rfl, ?_⟩
        show c.Matches (s.outcomes c.id)
        rw [hi.outcomes_eq_nil hn]
        exact NotificationOutbox.matches_new hnew.1 hnew.2
      · exact hold hc
    · rw [if_neg hnew] at hc
      exact hold hc
  · obtain ⟨m, hm, hid, hg⟩ := hi.ready p id hp
    exact ⟨m, List.mem_append_left _ hm, hid, hg⟩

/-- A poll locks what it selects. -/
theorem OutboxInv.pollSelect {rows : List NotificationOutbox} (hi : OutboxInv s)
    (h : s.step (.pollSelect p now rows) = some s') : OutboxInv s' := by
  obtain ⟨hp, -, locks, hl, rfl⟩ := step_pollSelect h
  refine ⟨hi.keyed, hi.logged, hi.history, fun q hq => ?_, fun q id hq => ?_, hi.ready⟩
  · show s.tasks q = none
    by_cases he : q = p
    · exact he ▸ (Outbox.isIdle_iff.mp hp).1
    · exact hi.apart q fun hn => hq ((Function.update_of_ne he _ _).trans hn)
  · exact (LockTable.holds_acquireAll hl).mpr (.inl (hi.locked q id hq))

/-- A poll enqueues a task, which waits. -/
theorem OutboxInv.pollEnqueue (hi : OutboxInv s) (h : s.step (.pollEnqueue p q now) = some s') : OutboxInv s' := by
  obtain ⟨id, ids, hp, hq, rfl⟩ := step_pollEnqueue h
  have hpq : p ≠ q := by
    rintro rfl
    rw [(Outbox.isIdle_iff.mp hq).2] at hp
    cases hp
  have hrun : ∀ {r m}, Outbox.Dispatching { s with
      tasks := Function.update s.tasks q (some ⟨id, 0, .waiting now⟩)
      polls := Function.update s.polls p (some ids) } r m → s.Dispatching r m := fun hr =>
    (hr.of_quiet rfl fun d hd => Option.some.inj hd ▸ DeliveryPhase.noConfusion).2
  refine ⟨hi.keyed, hi.logged, hi.history, fun r hr => ?_, fun r m hr => hi.locked r m (hrun hr),
    fun r m hr => hi.ready r m (hrun hr)⟩
  have hpolls : s.polls r ≠ none := by
    by_cases he : r = p
    · rw [he, hp]
      exact Option.some_ne_none _
    · exact fun hn => hr ((Function.update_of_ne he _ _).trans hn)
  have hne : r ≠ q := fun he => hpolls (he ▸ (Outbox.isIdle_iff.mp hq).2)
  exact (Function.update_of_ne hne _ _).trans (hi.apart r hpolls)

/-- A poll ends; it was no task. -/
theorem OutboxInv.pollCommit (hi : OutboxInv s) (h : s.step (.pollCommit p) = some s') : OutboxInv s' := by
  obtain ⟨hp, rfl⟩ := step_pollCommit h
  refine ⟨hi.keyed, hi.logged, hi.history, fun q hq => ?_, fun q id hq => ?_, hi.ready⟩
  · have hne : q ≠ p := fun he => hq (he ▸ Function.update_self _ _ _)
    exact hi.apart q fun hn => hq ((Function.update_of_ne hne _ _).trans hn)
  · refine LockTable.holds_release.mpr ⟨hi.locked q id hq, ?_⟩
    rintro rfl
    obtain ⟨t, ht, -⟩ := hq
    have hnone : s.tasks q = none := hi.apart q (hp ▸ Option.some_ne_none _)
    rw [hnone] at ht
    cases ht

/-- A task is no poll. -/
theorem OutboxInv.apart_update (hi : OutboxInv s) {d : Delivery} (hp : s.tasks p = some d) (t : Option Delivery) :
    ∀ r, s.polls r ≠ none → Function.update s.tasks p t r = none := by
  intro r hr
  have hnone : s.tasks r = none := hi.apart r hr
  have hne : r ≠ p := by
    rintro rfl
    rw [hnone] at hp
    cases hp
  exact (Function.update_of_ne hne _ _).trans hnone

/-- While a task holds the lock of a row, the other dispatching tasks are on other rows. -/
theorem OutboxInv.others (hi : OutboxInv s) {L : LockTable Uuid} (hkeep : ∀ k r, s.locks.Holds k r → L.Holds k r)
    (hmine : L.Holds id p) (hq : q ≠ p) (h : s.Dispatching q m) : (L.release p).Holds m q ∧ m ≠ id := by
  have hheld : L.Holds m q := hkeep m q (hi.locked q m h)
  refine ⟨LockTable.holds_release.mpr ⟨hheld, hq⟩, ?_⟩
  rintro rfl
  exact hq (hheld.unique hmine)

/-- A task with the lock of its row writes the row and commits. -/
theorem OutboxInv.written {L : LockTable Uuid} {f : NotificationOutbox → NotificationOutbox} {ds : List (Uuid × Bool)}
    {t : Option Delivery} {d : Delivery} (hi : OutboxInv s) (hp : s.tasks p = some d)
    (hkeep : ∀ k r, s.locks.Holds k r → L.Holds k r) (hmine : L.Holds id p)
    (hf : ∀ n, (f n).id = n.id ∧ (f n).maxRetries = n.maxRetries) (ht : ∀ d, t = some d → d.phase ≠ .running)
    (hs : s' = { s with
      rows := updateRow s.rows id f
      locks := L.release p
      dispatches := ds
      tasks := Function.update s.tasks p t })
    (hlog : ∀ d ∈ ds, d.1 ∈ s.rows.map NotificationOutbox.id) (hother : ∀ m, m ≠ id → s'.outcomes m = s.outcomes m)
    (hmatches : ∀ n ∈ s.rows, n.id = id → n.Matches (s.outcomes id) → (f n).Matches (s'.outcomes id)) :
    OutboxInv s' := by
  have hids : s'.rows.map NotificationOutbox.id = s.rows.map NotificationOutbox.id :=
    hs ▸ map_id_updateRow s.rows id fun n => (hf n).1
  have hrun : ∀ {r m}, s'.Dispatching r m → r ≠ p ∧ s.Dispatching r m := fun hr =>
    hr.of_quiet (congrArg Outbox.tasks hs) ht
  have hkept : ∀ n ∈ s.rows, n.id ≠ id → n ∈ s'.rows := by
    intro n hn hne
    rw [hs]
    exact List.mem_map.mpr ⟨n, hn, if_neg hne⟩
  refine ⟨hids ▸ hi.keyed, fun d hd => ?_, fun c hc => ?_, ?_, fun r m hr => ?_, fun r m hr => ?_⟩
  · rw [hids]
    rw [hs] at hd
    exact hlog d hd
  · rw [hs] at hc
    obtain ⟨n, hn, hid, hmax, hm⟩ := hi.history c hc
    by_cases hc : c.id = id
    · refine ⟨f n, ?_, (hf n).1.trans hid, (hf n).2.trans hmax, ?_⟩
      · rw [hs]
        exact List.mem_map.mpr ⟨n, hn, if_pos (hid.trans hc)⟩
      · rw [hc] at hm ⊢
        exact hmatches n hn (hid.trans hc) hm
    · refine ⟨n, hkept n hn (hid ▸ hc), hid, hmax, ?_⟩
      rw [hother c.id hc]
      exact hm
  · subst hs
    exact hi.apart_update hp t
  · obtain ⟨hne, hr⟩ := hrun hr
    rw [hs]
    exact (hi.others hkeep hmine hne hr).1
  · obtain ⟨hne, hr⟩ := hrun hr
    obtain ⟨n, hn, hid, hg⟩ := hi.ready r m hr
    exact ⟨n, hkept n hn (hid ▸ (hi.others hkeep hmine hne hr).2), hid, hg⟩

/-- A task begins. -/
theorem OutboxInv.begin (hi : OutboxInv s) (h : s.step (.begin p now) = some s') : OutboxInv s' := by
  have hdone : ∀ d : Delivery, none = some d → d.phase ≠ .running := fun d hd => nomatch hd
  obtain ⟨id, retries, eta, hp, ⟨-, hs⟩ | ⟨n, locks, hn, hl, hs⟩⟩ := step_begin h
  · -- there is no such row
    have hrun : ∀ {r m}, s'.Dispatching r m → s.Dispatching r m := fun hr =>
      (hr.of_quiet (congrArg Outbox.tasks hs) hdone).2
    subst hs
    exact ⟨hi.keyed, hi.logged, hi.history, hi.apart_update hp none, fun r m hr => hi.locked r m (hrun hr),
      fun r m hr => hi.ready r m (hrun hr)⟩
  · have hkeep : ∀ k r, s.locks.Holds k r → locks.Holds k r := fun k r hk => (LockTable.holds_acquire hl).mpr (.inl hk)
    have hmine : locks.Holds id p := (LockTable.holds_acquire hl).mpr (.inr ⟨rfl, rfl⟩)
    obtain ⟨hmem, hid⟩ := findRow_eq_some hn
    rcases hs with hs | ⟨hg, hs⟩ | ⟨hg, hs⟩
    · -- the checks end the task
      have hrows : updateRow s.rows id (fun n => n) = s.rows :=
        (List.map_congr_left fun n _ => ite_self n).trans s.rows.map_id
      have hs' : s' = { s with
          rows := updateRow s.rows id fun n => n
          locks := locks.release p
          tasks := Function.update s.tasks p none } := by
        rw [hrows]
        exact hs
      refine hi.written hp hkeep hmine (fun n => ⟨rfl, rfl⟩) hdone hs' hi.logged (fun m _ => ?_) fun m _ _ hm => ?_
      · rw [hs]
        rfl
      · rw [hs]
        exact hm
    · -- the row is given up
      refine hi.written hp hkeep hmine (fun n => ⟨n.id_exhaust, n.maxRetries_exhaust⟩) hdone hs hi.logged
        (fun m _ => ?_) fun k hk hkid hm => ?_
      · rw [hs]
        rfl
      · obtain rfl : k = n := List.inj_on_of_nodup_map hi.keyed hk hmem (hkid.trans hid.symm)
        rw [hs]
        exact hm.exhaust hg
    · -- the dispatch begins
      have hrun : ∀ {r m}, s'.Dispatching r m → r = p ∧ m = id ∨ s.Dispatching r m := by
        intro r m hr
        rcases hr.of_update (congrArg Outbox.tasks hs) with ⟨rfl, d, hd, rfl, -⟩ | ⟨-, hr⟩
        · exact .inl ⟨rfl, (Option.some.inj hd).symm ▸ rfl⟩
        · exact .inr hr
      subst hs
      refine ⟨hi.keyed, hi.logged, hi.history, hi.apart_update hp _, fun r m hr => ?_, fun r m hr => ?_⟩
      · rcases hrun hr with ⟨rfl, rfl⟩ | hr
        · exact hmine
        · exact hkeep m r (hi.locked r m hr)
      · rcases hrun hr with ⟨rfl, rfl⟩ | hr
        · exact ⟨n, hmem, hid, hg⟩
        · exact hi.ready r m hr

/-- A dispatch ends, and what came of it is written back. -/
theorem OutboxInv.dispatch {outcome : Except PyExc Unit} (hi : OutboxInv s)
    (h : s.step (.dispatch p now outcome) = some s') : OutboxInv s' := by
  obtain ⟨id, retries, hp, hs⟩ := step_dispatch h
  have hd : s.Dispatching p id := ⟨_, hp, rfl, rfl⟩
  obtain ⟨n, hn, hid, hg⟩ := hi.ready p id hd
  have happend : ∀ m, s'.outcomes m = s.outcomes m ++ if id = m then [returned outcome] else [] := fun m =>
    Outbox.outcomes_append (congrArg Outbox.dispatches hs)
  refine hi.written hp (fun _ _ hk => hk) (hi.locked p id hd)
    (fun n => ⟨n.id_afterDispatch now outcome, n.maxRetries_afterDispatch now outcome⟩)
    (fun d hd => (Delivery.next_eq_some hd).2) hs (fun d hd => ?_) (fun m hm => ?_) fun k hk hkid hm => ?_
  · rcases List.mem_append.mp hd with hd | hd
    · exact hi.logged d hd
    · obtain rfl := List.mem_singleton.mp hd
      exact hid ▸ List.mem_map_of_mem hn
  · rw [happend, if_neg (Ne.symm hm), List.append_nil]
  · obtain rfl : k = n := List.inj_on_of_nodup_map hi.keyed hk hn (hkid.trans hid.symm)
    rw [happend, if_pos rfl]
    exact hm.afterDispatch hg now outcome

/-- **Every step keeps the invariant.** -/
theorem OutboxInv.step {l : OutboxStep} (hi : OutboxInv s) (h : outboxSystem.step s l = some s') : OutboxInv s' := by
  cases l with
  | create n => exact hi.create h
  | pollSelect p now rows => exact hi.pollSelect h
  | pollEnqueue p q now => exact hi.pollEnqueue h
  | pollCommit p => exact hi.pollCommit h
  | begin p now => exact hi.begin h
  | dispatch p now outcome => exact hi.dispatch h

theorem outboxInv_empty : OutboxInv .empty where
  keyed := List.nodup_nil
  logged := fun _ h => nomatch h
  history := fun _ h => nomatch h
  apart := fun _ _ => rfl
  locked := fun _ _ ⟨_, h, _⟩ => nomatch h
  ready := fun _ _ ⟨_, h, _⟩ => nomatch h

/-! ## Runs -/

/-- The row `c` that came in is delivered at most once, after at most `max_retries` attempts; `n` is the row now. -/
structure DeliveredAtMostOnce (s : Outbox) (c n : NotificationOutbox) : Prop where
  once : (s.outcomes c.id).count true ≤ 1
  /-- No dispatch follows a successful one. -/
  last : ∀ before after, s.outcomes c.id = before ++ true :: after → after = []
  bounded : ((s.outcomes c.id).length : Int) ≤ max c.maxRetries 0
  sent : n.status = .sent ↔ true ∈ s.outcomes c.id
  /-- A dispatch that has not ended follows no successful one, is within the bound, and is the only one. -/
  running : ∀ p, s.Dispatching p c.id → true ∉ s.outcomes c.id ∧
    ((s.outcomes c.id).length + 1 : Int) ≤ max c.maxRetries 0 ∧ ∀ q, s.Dispatching q c.id → q = p

/-- A success that comes after failures only is the last one. -/
theorem after_eq_nil {k : Nat} {tail before after : List Bool} (ht : tail = [true] ∨ tail = [])
    (h : List.replicate k false ++ tail = before ++ true :: after) : after = [] := by
  induction k generalizing before with
  | zero =>
    rcases ht with rfl | rfl
    · cases before with
      | nil => exact (List.cons.inj h).2.symm
      | cons b before =>
        have hnil : [] = before ++ true :: after := (List.cons.inj h).2
        cases before <;> cases hnil
    · cases before <;> cases h
  | succ k ih =>
    cases before with
    | nil => cases (List.cons.inj h).1
    | cons b before => exact ih (List.cons.inj h).2

/-- A row stays among the rows that came in. -/
theorem mem_fresh_step {l : OutboxStep} {c : NotificationOutbox} (hc : c ∈ s.fresh) (h : s.step l = some s') :
    c ∈ s'.fresh := by
  cases l with
  | create n =>
    obtain ⟨-, rfl⟩ := step_create h
    show c ∈ if n.status = .pending ∧ n.retryCount = 0 then n :: s.fresh else s.fresh
    split
    · exact List.mem_cons_of_mem n hc
    · exact hc
  | pollSelect p now rows =>
    obtain ⟨-, -, -, -, rfl⟩ := step_pollSelect h
    exact hc
  | pollEnqueue p q now =>
    obtain ⟨-, -, -, -, rfl⟩ := step_pollEnqueue h
    exact hc
  | pollCommit p =>
    obtain ⟨-, rfl⟩ := step_pollCommit h
    exact hc
  | begin p now =>
    obtain ⟨-, -, -, -, ⟨-, rfl⟩ | ⟨-, -, -, -, rfl | ⟨-, rfl⟩ | ⟨-, rfl⟩⟩⟩ := step_begin h
    · exact hc
    · exact hc
    · exact hc
    · exact hc
  | dispatch p now outcome =>
    obtain ⟨-, -, -, rfl⟩ := step_dispatch h
    exact hc

theorem mem_fresh_run {ls : List OutboxStep} {c : NotificationOutbox} (hstatus : c.status = .pending)
    (hcount : c.retryCount = 0) (hc : c ∈ s.fresh ∨ .create c ∈ ls) (hrun : outboxSystem.run s ls = some s') :
    c ∈ s'.fresh := by
  induction ls generalizing s with
  | nil =>
    obtain rfl := Option.some.inj hrun
    exact hc.resolve_right List.not_mem_nil
  | cons l ls ih =>
    obtain ⟨t, ht, hrun⟩ := System.run_cons_eq_some.mp hrun
    refine ih ?_ hrun
    rcases hc with hc | hc
    · exact .inl (mem_fresh_step hc ht)
    · rcases List.mem_cons.mp hc with rfl | hc
      · obtain ⟨-, rfl⟩ := step_create ht
        left
        show c ∈ if c.status = .pending ∧ c.retryCount = 0 then c :: s.fresh else s.fresh
        rw [if_pos ⟨hstatus, hcount⟩]
        exact List.mem_cons_self
      · exact .inr hc

/-- The invariant says that a row is delivered at most once. -/
theorem OutboxInv.atMostOnce (hi : OutboxInv s) {c : NotificationOutbox} (hc : c ∈ s.fresh) :
    ∃ n ∈ s.rows, n.id = c.id ∧ DeliveredAtMostOnce s c n := by
  obtain ⟨n, hn, hid, hmax, hm⟩ := hi.history c hc
  have htail : (if n.status = .sent then [true] else []) = [true] ∨ (if n.status = .sent then [true] else []) = [] := by
    split
    · exact .inl rfl
    · exact .inr rfl
  have hmem : true ∈ s.outcomes c.id ↔ n.status = .sent := by
    rw [hm.outcomes_eq, List.mem_append]
    constructor
    · rintro (h | h)
      · cases List.eq_of_mem_replicate h
      · by_contra hs
        rw [if_neg hs] at h
        cases h
    · intro hs
      right
      rw [if_pos hs]
      exact List.mem_singleton_self true
  refine ⟨n, hn, hid, ?_, fun before after h => ?_, hmax ▸ hm.bounded, hmem.symm, fun p hp => ?_⟩
  · have hfailures : (List.replicate n.retryCount.toNat false).count true = 0 :=
      List.count_eq_zero.mpr fun h => Bool.false_ne_true (List.eq_of_mem_replicate h).symm
    rw [hm.outcomes_eq, List.count_append, hfailures, Nat.zero_add]
    rcases htail with h | h
    · rw [h, List.count_singleton_self]
    · rw [h]
      exact Nat.zero_le 1
  · exact after_eq_nil htail (hm.outcomes_eq.symm.trans h)
  · obtain ⟨k, hk, hkid, hg⟩ := hi.ready p c.id hp
    obtain rfl : k = n := List.inj_on_of_nodup_map hi.keyed hk hn (hkid.trans hid.symm)
    obtain ⟨hsent, -, hlt⟩ := NotificationOutbox.guard_eq_dispatch hg
    refine ⟨fun h => hsent (hmem.mp h), ?_, fun q hq => (hi.locked q c.id hq).unique (hi.locked p c.id hp)⟩
    rw [hm.outcomes_eq, if_neg hsent, List.append_nil, List.length_replicate, ← hmax]
    have hnonneg := hm.nonneg
    omega

/-- **In every run of polls and deliveries, a row that came in pending and without attempts is delivered at most once,
in at most `max_retries` attempts, and is `SENT` if and only if it was delivered.** -/
theorem delivered_at_most_once {ls : List OutboxStep} (hrun : outboxSystem.run .empty ls = some s)
    {c : NotificationOutbox} (hc : .create c ∈ ls) (hstatus : c.status = .pending) (hcount : c.retryCount = 0) :
    ∃ n ∈ s.rows, n.id = c.id ∧ DeliveredAtMostOnce s c n :=
  (System.invariant_run OutboxInv.step outboxInv_empty hrun).atMostOnce
    (mem_fresh_run hstatus hcount (.inr hc) hrun)

end

/-- Two tasks for one row: the first dispatch fails and the second succeeds. -/
theorem delivered_at_most_once_retried :
    ∃ s n, outboxSystem.run .empty OutboxSample.retried = some s ∧ s.outcomes OutboxSample.row.id = [false, true] ∧
      n ∈ s.rows ∧ n.id = OutboxSample.row.id ∧ DeliveredAtMostOnce s OutboxSample.row n := by
  have hrun : (outboxSystem.run .empty OutboxSample.retried).map (fun s => s.outcomes OutboxSample.row.id) =
      some [false, true] := by
    decide
  obtain ⟨s, hs, houtcomes⟩ := Option.map_eq_some_iff.mp hrun
  obtain ⟨n, hn, hid, hdelivered⟩ := delivered_at_most_once (c := OutboxSample.row) hs List.mem_cons_self rfl rfl
  exact ⟨s, n, hs, houtcomes, hn, hid, hdelivered⟩

end ComplianceLoop
