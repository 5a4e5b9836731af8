import ComplianceLoop.Workers.AtMostOnce

/-!
# One delivery task per notification

Enqueueing a task leaves no mark in the row, so a poll may select a row whose task has not begun or waits for its retry.
The locks that the polls take keep two polls from enqueueing the same row at once (`PollInv`); so where no poll selects
a row with an outstanding task there is never more than one task for a row. A poll that does select such a row is
doomed: it holds the lock of the row, so the task cannot go on before the poll has enqueued a second one
(`Doomed.step`). The two halves are `oneTaskEach_iff`.
-/

set_option autoImplicit false

namespace ComplianceLoop

open PyLib Transition

/-- No row has two outstanding tasks. -/
def OneTaskEach (s : Outbox) : Prop :=
  ∀ p q t u, s.tasks p = some t → s.tasks q = some u → t.notification = u.notification → p = q

/-- No task is outstanding for the row. -/
def NoTask (s : Outbox) (id : Uuid) : Prop := ∀ p t, s.tasks p = some t → t.notification ≠ id

/-- A poll selects only rows without an outstanding task. -/
def SelectsIdle (s : Outbox) : OutboxStep → Prop
  | .pollSelect _ _ rows => ∀ n ∈ rows, NoTask s n.id
  | _ => True

/-- A poll holds the locks of the rows that it has still to enqueue, and they are different rows of the outbox. -/
structure Polling (s : Outbox) (p : Nat) (ids : List Uuid) : Prop where
  distinct : ids.Nodup
  held : ∀ id ∈ ids, s.locks.Holds id p
  present : ∀ id ∈ ids, id ∈ s.rows.map NotificationOutbox.id

/-- What holds between the steps, whatever the polls select. -/
structure PollInv (s : Outbox) : Prop where
  outbox : OutboxInv s
  polling : ∀ p ids, s.polls p = some ids → Polling s p ids

/-- Besides, a row that a poll has still to enqueue has no task, and no row has two. -/
structure Undoubled (s : Outbox) : Prop where
  inv : PollInv s
  each : OneTaskEach s
  idle : ∀ p ids, s.polls p = some ids → ∀ id ∈ ids, NoTask s id

/-- A poll has still to enqueue a row that has an outstanding task. -/
def Doomed (s : Outbox) : Prop := ∃ p ids id, s.polls p = some ids ∧ id ∈ ids ∧ ¬ NoTask s id

section

variable {s s' : Outbox} {p q : Nat} {now : Int} {id : Uuid}

/-! ## The step of a task -/

/-- What a step of task `p` leaves alone. -/
structure TaskStep (s s' : Outbox) (p : Nat) (d : Delivery) : Prop where
  before : s.tasks p = some d
  after : ∃ t, s'.tasks = Function.update s.tasks p t ∧ ∀ u, t = some u → u.notification = d.notification
  polls : s'.polls = s.polls
  rows : s'.rows.map NotificationOutbox.id = s.rows.map NotificationOutbox.id
  locks : ∀ id q, q ≠ p → s.locks.Holds id q → s'.locks.Holds id q

theorem taskStep_begin (h : s.step (.begin p now) = some s') : ∃ d, TaskStep s s' p d := by
  obtain ⟨id, retries, eta, hp, ⟨-, rfl⟩ | ⟨n, locks, -, hl, hs⟩⟩ := step_begin h
  · exact ⟨_, hp, ⟨none, rfl, fun u hu => nomatch hu⟩, rfl, rfl, fun _ _ _ hk => hk⟩
  · have hkeep : ∀ k q, q ≠ p → s.locks.Holds k q → (locks.release p).Holds k q := fun k q hq hk =>
      LockTable.holds_release.mpr ⟨(LockTable.holds_acquire hl).mpr (.inl hk), hq⟩
    rcases hs with rfl | ⟨-, rfl⟩ | ⟨-, rfl⟩
    · exact ⟨_, hp, ⟨none, rfl, fun u hu => nomatch hu⟩, rfl, rfl, hkeep⟩
    · exact ⟨_, hp, ⟨none, rfl, fun u hu => nomatch hu⟩, rfl, map_id_updateRow _ _ fun n => n.id_exhaust, hkeep⟩
    · exact ⟨_, hp, ⟨_, rfl, fun u hu => Option.some.inj hu ▸ rfl⟩, rfl, rfl, fun k q _ hk =>
        (LockTable.holds_acquire hl).mpr (.inl hk)⟩

theorem taskStep_dispatch {outcome : Except PyExc Unit} (h : s.step (.dispatch p now outcome) = some s') :
    ∃ d, TaskStep s s' p d := by
  obtain ⟨id, retries, hp, rfl⟩ := step_dispatch h
  exact ⟨_, hp, ⟨_, rfl, fun u hu => (Delivery.next_eq_some hu).1⟩, rfl,
    map_id_updateRow _ _ fun n => n.id_afterDispatch now outcome, fun _ _ hq hk =>
      LockTable.holds_release.mpr ⟨hk, hq⟩⟩

namespace TaskStep

variable {d : Delivery}

/-- A task after the step was there before, for the same row. -/
theorem tasks_of (h : TaskStep s s' p d) {u : Delivery} (hu : s'.tasks q = some u) :
    ∃ t, s.tasks q = some t ∧ t.notification = u.notification := by
  obtain ⟨t, htasks, ht⟩ := h.after
  rw [htasks] at hu
  rcases update_eq_some hu with ⟨rfl, hnew⟩ | ⟨-, hu⟩
  · exact ⟨d, h.before, (ht u hnew).symm⟩
  · exact ⟨u, hu, rfl⟩

theorem noTask (h : TaskStep s s' p d) (hid : NoTask s id) : NoTask s' id := by
  intro q u hu
  obtain ⟨t, ht, he⟩ := h.tasks_of hu
  exact he ▸ hid q t ht

theorem oneTaskEach (h : TaskStep s s' p d) (hs : OneTaskEach s) : OneTaskEach s' := by
  intro q r t u ht hu he
  obtain ⟨t', ht', het⟩ := h.tasks_of ht
  obtain ⟨u', hu', heu⟩ := h.tasks_of hu
  exact hs q r t' u' ht' hu' (het.trans (he.trans heu.symm))

theorem pollInv (h : TaskStep s s' p d) (hi : PollInv s) (hi' : OutboxInv s') : PollInv s' := by
  refine ⟨hi', fun q ids hq => ?_⟩
  rw [h.polls] at hq
  obtain ⟨hdistinct, hheld, hpresent⟩ := hi.polling q ids hq
  refine ⟨hdistinct, fun id hid => h.locks id q ?_ (hheld id hid), fun id hid => h.rows ▸ hpresent id hid⟩
  rintro rfl
  have hnone : s.tasks q = none := hi.outbox.apart q (hq ▸ Option.some_ne_none ids)
  rw [h.before] at hnone
  cases hnone

end TaskStep

/-! ## One step -/

/-- **Every step keeps the invariant of the polls.** -/
theorem PollInv.step {l : OutboxStep} (hi : PollInv s) (h : outboxSystem.step s l = some s') : PollInv s' := by
  have hi' : OutboxInv s' := hi.outbox.step h
  cases l with
  | create n =>
    obtain ⟨-, rfl⟩ := step_create h
    refine ⟨hi', fun p ids hp => ?_⟩
    obtain ⟨hdistinct, hheld, hpresent⟩ := hi.polling p ids hp
    refine ⟨hdistinct, hheld, fun id hid => ?_⟩
    rw [List.map_append]
    exact List.mem_append_left _ (hpresent id hid)
  | pollSelect p now rows =>
    obtain ⟨-, ⟨hnodup, hmem, -⟩, locks, hl, rfl⟩ := step_pollSelect h
    have hrows : ∀ n ∈ rows, n ∈ s.rows := fun n hn => List.mem_of_mem_filter (hmem n hn)
    refine ⟨hi', fun q ids hq => ?_⟩
    rcases update_eq_some hq with ⟨rfl, hnew⟩ | ⟨-, hq⟩
    · obtain rfl := Option.some.inj hnew
      refine ⟨?_, fun id hid => (LockTable.holds_acquireAll hl).mpr (.inr ⟨hid, rfl⟩), fun id hid => ?_⟩
      · exact hnodup.map_on fun m hm n hn => List.inj_on_of_nodup_map hi.outbox.keyed (hrows m hm) (hrows n hn)
      · obtain ⟨n, hn, rfl⟩ := List.mem_map.mp hid
        exact List.mem_map_of_mem (hrows n hn)
    · obtain ⟨hdistinct, hheld, hpresent⟩ := hi.polling q ids hq
      exact ⟨hdistinct, fun id hid => (LockTable.holds_acquireAll hl).mpr (.inl (hheld id hid)), hpresent⟩
  | pollEnqueue p q now =>
    obtain ⟨id, ids, hp, -, rfl⟩ := step_pollEnqueue h
    refine ⟨hi', fun r ids' hr => ?_⟩
    rcases update_eq_some hr with ⟨rfl, hnew⟩ | ⟨-, hr⟩
    · obtain rfl := Option.some.inj hnew
      obtain ⟨hdistinct, hheld, hpresent⟩ := hi.polling r (id :: ids) hp
      exact ⟨hdistinct.of_cons, fun m hm => hheld m (List.mem_cons_of_mem id hm),
        fun m hm => hpresent m (List.mem_cons_of_mem id hm)⟩
    · obtain ⟨hdistinct, hheld, hpresent⟩ := hi.polling r ids' hr
      exact ⟨hdistinct, hheld, hpresent⟩
  | pollCommit p =>
    obtain ⟨-, rfl⟩ := step_pollCommit h
    refine ⟨hi', fun q ids hq => ?_⟩
    rcases update_eq_some hq with ⟨-, hq⟩ | ⟨hne, hq⟩
    · cases hq
    · obtain ⟨hdistinct, hheld, hpresent⟩ := hi.polling q ids hq
      exact ⟨hdistinct, fun id hid => LockTable.holds_release.mpr ⟨hheld id hid, hne⟩, hpresent⟩
  | begin p now =>
    obtain ⟨d, hd⟩ := taskStep_begin h
    exact hd.pollInv hi hi'
  | dispatch p now outcome =>
    obtain ⟨d, hd⟩ := taskStep_dispatch h
    exact hd.pollInv hi hi'

/-- A task is enqueued: its row had none, and no other poll has selected the row. -/
theorem Undoubled.pollEnqueue {p q : Nat} {now : Int} (hi : Undoubled s)
    (h : outboxSystem.step s (.pollEnqueue p q now) = some s') : Undoubled s' := by
  have hi' : PollInv s' := hi.inv.step h
  obtain ⟨id, ids, hp, -, rfl⟩ := step_pollEnqueue h
  have hidle : NoTask s id := hi.idle p (id :: ids) hp id List.mem_cons_self
  refine ⟨hi', fun r r' t u ht hu he => ?_, fun r ids' hr m hm r' t ht => ?_⟩
  · rcases update_eq_some ht with ⟨hr, hnew⟩ | ⟨-, ht⟩
    · rcases update_eq_some hu with ⟨hr', -⟩ | ⟨-, hu⟩
      · exact hr.trans hr'.symm
      · obtain rfl := Option.some.inj hnew
        exact absurd he.symm (hidle r' u hu)
    · rcases update_eq_some hu with ⟨-, hnew⟩ | ⟨-, hu⟩
      · obtain rfl := Option.some.inj hnew
        exact absurd he (hidle r t ht)
      · exact hi.each r r' t u ht hu he
  · -- the rows that are still to enqueue are other rows: of this poll as they are different, of another by the locks
    have hother : m ≠ id ∧ NoTask s m := by
      obtain ⟨hdistinct, hheld, -⟩ := hi.inv.polling p (id :: ids) hp
      rcases update_eq_some hr with ⟨rfl, hnew⟩ | ⟨hne, hr⟩
      · obtain rfl := Option.some.inj hnew
        refine ⟨?_, hi.idle r (id :: ids) hp m (List.mem_cons_of_mem id hm)⟩
        rintro rfl
        exact hdistinct.notMem hm
      · have hlock : s.locks.Holds m r := (hi.inv.polling r ids' hr).held m hm
        exact ⟨fun he => hne (hlock.unique (hheld m (he ▸ List.mem_cons_self))), hi.idle r ids' hr m hm⟩
    rcases update_eq_some ht with ⟨-, ht⟩ | ⟨-, ht⟩
    · obtain rfl := Option.some.inj ht
      exact Ne.symm hother.1
    · exact hother.2 r' t ht

/-- **A step that selects no row with an outstanding task keeps the rows undoubled.** -/
theorem Undoubled.step {l : OutboxStep} (hi : Undoubled s) (hg : SelectsIdle s l)
    (h : outboxSystem.step s l = some s') : Undoubled s' := by
  have hi' : PollInv s' := hi.inv.step h
  have htask : ∀ {p d}, TaskStep s s' p d → Undoubled s' := fun ht =>
    ⟨hi', ht.oneTaskEach hi.each, fun q ids hq id hid => ht.noTask (hi.idle q ids (ht.polls ▸ hq) id hid)⟩
  cases l with
  | create n =>
    obtain ⟨-, rfl⟩ := step_create h
    exact ⟨hi', hi.each, hi.idle⟩
  | pollSelect p now rows =>
    obtain ⟨-, -, locks, -, rfl⟩ := step_pollSelect h
    refine ⟨hi', hi.each, fun q ids hq id hid => ?_⟩
    rcases update_eq_some hq with ⟨-, hq⟩ | ⟨-, hq⟩
    · obtain rfl := Option.some.inj hq
      obtain ⟨n, hn, rfl⟩ := List.mem_map.mp hid
      exact hg n hn
    · exact hi.idle q ids hq id hid
  | pollEnqueue p q now =>
    exact hi.pollEnqueue h
  | pollCommit p =>
    obtain ⟨-, rfl⟩ := step_pollCommit h
    refine ⟨hi', hi.each, fun q ids hq id hid => ?_⟩
    rcases update_eq_some hq with ⟨-, hq⟩ | ⟨-, hq⟩
    · cases hq
    · exact hi.idle q ids hq id hid
  | begin p now =>
    obtain ⟨d, hd⟩ := taskStep_begin h
    exact htask hd
  | dispatch p now outcome =>
    obtain ⟨d, hd⟩ := taskStep_dispatch h
    exact htask hd

/-- **A task whose row a poll has still to enqueue cannot go on, so either it is still doomed or it is doubled.** -/
theorem Doomed.step {l : OutboxStep} (hi : PollInv s) (hd : Doomed s) (h : outboxSystem.step s l = some s')
    (hp : OneTaskEach s') : Doomed s' := by
  obtain ⟨p, ids, id, hpoll, hid, htask⟩ := hd
  obtain ⟨r, t, ht, hrow⟩ : ∃ r t, s.tasks r = some t ∧ t.notification = id := by
    by_contra hno
    exact htask fun r t ht he => hno ⟨r, t, ht, he⟩
  have hheld : s.locks.Holds id p := (hi.polling p ids hpoll).held id hid
  have hnone : s.tasks p = none := hi.outbox.apart p (hpoll ▸ Option.some_ne_none ids)
  have hrp : r ≠ p := by
    rintro rfl
    rw [ht] at hnone
    cases hnone
  -- the step of another task leaves the poll and the task alone
  have hother : ∀ {q d}, TaskStep s s' q d → r ≠ q → Doomed s' := by
    intro q d hq hne
    obtain ⟨u, htasks, -⟩ := hq.after
    refine ⟨p, ids, id, hq.polls ▸ hpoll, hid, fun hno => hno r t ?_ hrow⟩
    rw [htasks]
    exact (Function.update_of_ne hne _ _).trans ht
  cases l with
  | create n =>
    obtain ⟨-, rfl⟩ := step_create h
    exact ⟨p, ids, id, hpoll, hid, htask⟩
  | pollSelect q now rows =>
    obtain ⟨hidle, -, locks, -, rfl⟩ := step_pollSelect h
    have hne : p ≠ q := by
      rintro rfl
      rw [(Outbox.isIdle_iff.mp hidle).2] at hpoll
      cases hpoll
    exact ⟨p, ids, id, (Function.update_of_ne hne _ _).trans hpoll, hid, htask⟩
  | pollEnqueue q k now =>
    obtain ⟨m, ms, hq, hidle, rfl⟩ := step_pollEnqueue h
    have hrk : r ≠ k := by
      rintro rfl
      rw [(Outbox.isIdle_iff.mp hidle).1] at ht
      cases ht
    have ht' : Function.update s.tasks k (some ⟨m, 0, .waiting now⟩) r = some t :=
      (Function.update_of_ne hrk _ _).trans ht
    by_cases hpq : p = q
    · subst hpq
      obtain rfl := Option.some.inj (hpoll.symm.trans hq)
      rcases List.mem_cons.mp hid with rfl | hid
      · exact absurd (hp r k t _ ht' (Function.update_self _ _ _) hrow) hrk
      · exact ⟨p, ms, id, Function.update_self _ _ _, hid, fun hno => hno r t ht' hrow⟩
    · exact ⟨p, ids, id, (Function.update_of_ne hpq _ _).trans hpoll, hid, fun hno => hno r t ht' hrow⟩
  | pollCommit q =>
    obtain ⟨hq, rfl⟩ := step_pollCommit h
    have hne : p ≠ q := by
      rintro rfl
      obtain rfl := Option.some.inj (hpoll.symm.trans hq)
      cases hid
    exact ⟨p, ids, id, (Function.update_of_ne hne _ _).trans hpoll, hid, htask⟩
  | begin q now =>
    obtain ⟨d, hd⟩ := taskStep_begin h
    refine hother hd ?_
    rintro rfl
    obtain ⟨m, retries, eta, hm, ⟨hn, -⟩ | ⟨n, locks, -, hl, -⟩⟩ := step_begin h
    · -- the row is there
      obtain rfl := Option.some.inj (ht.symm.trans hm)
      obtain ⟨n, hmem, hnid⟩ := List.mem_map.mp ((hi.polling p ids hpoll).present id hid)
      exact List.find?_eq_none.mp hn n hmem (decide_eq_true (hnid.trans hrow.symm))
    · -- and locked by the poll
      obtain rfl := Option.some.inj (ht.symm.trans hm)
      have hr : locks.Holds id r := (LockTable.holds_acquire hl).mpr (.inr ⟨hrow.symm, rfl⟩)
      exact hrp (hr.unique ((LockTable.holds_acquire hl).mpr (.inl hheld)))
  | dispatch q now outcome =>
    obtain ⟨d, hd⟩ := taskStep_dispatch h
    refine hother hd ?_
    rintro rfl
    obtain ⟨m, retries, hm, -⟩ := step_dispatch h
    obtain rfl := Option.some.inj (ht.symm.trans hm)
    exact hrp ((hi.outbox.locked r id ⟨_, hm, hrow, rfl⟩).unique hheld)

/-- A poll that selects a row with an outstanding task dooms the run. -/
theorem doomed_of_not_selectsIdle {l : OutboxStep} (h : outboxSystem.step s l = some s') (hg : ¬ SelectsIdle s l) :
    Doomed s' := by
  cases l with
  | pollSelect p now rows =>
    obtain ⟨-, -, locks, -, rfl⟩ := step_pollSelect h
    have hrow : ∃ n ∈ rows, ¬ NoTask s n.id := by
      by_contra hno
      exact hg fun n hn => by_contra fun ht => hno ⟨n, hn, ht⟩
    obtain ⟨n, hn, ht⟩ := hrow
    exact ⟨p, _, n.id, Function.update_self _ _ _, List.mem_map_of_mem hn, ht⟩
  | _ => exact absurd trivial hg

/-! ## Runs -/

theorem undoubled_empty : Undoubled .empty where
  inv := ⟨outboxInv_empty, fun _ _ h => nomatch h⟩
  each := fun _ _ _ _ h => nomatch h
  idle := fun _ _ h => nomatch h

/-- **A row has at most one outstanding task throughout a run in which no poll selects a row with one; and once the
polls of a run have ended, only in such a run.** -/
theorem oneTaskEach_iff (ls : List OutboxStep) :
    (outboxSystem.Each SelectsIdle .empty ls → outboxSystem.Always OneTaskEach .empty ls) ∧
      ∀ s, outboxSystem.run .empty ls = some s → (∀ p, s.polls p = none) →
        (outboxSystem.Always OneTaskEach .empty ls ↔ outboxSystem.Each SelectsIdle .empty ls) := by
  have hsafe : outboxSystem.Each SelectsIdle .empty ls → outboxSystem.Always OneTaskEach .empty ls :=
    System.always_of_each (fun hi hg h => Undoubled.step hi hg h) Undoubled.each undoubled_empty
  refine ⟨hsafe, fun s hrun hpolls => ⟨fun h => ?_, hsafe⟩⟩
  have hend : ¬ Doomed s := by
    rintro ⟨p, ids, -, hp, -⟩
    rw [hpolls p] at hp
    cases hp
  exact System.each_of_always PollInv.step (fun hi hd h hp => Doomed.step hi hd h hp)
    (fun _ h hg => doomed_of_not_selectsIdle h hg) undoubled_empty.inv hrun hend h

end

/-- A row comes in, and a poll enqueues its task. -/
theorem oneTaskEach_iff_polled :
    ∃ s, outboxSystem.run .empty (.create OutboxSample.row :: OutboxSample.poll 0 2 0) = some s ∧
      (outboxSystem.Always OneTaskEach .empty (.create OutboxSample.row :: OutboxSample.poll 0 2 0) ↔
        outboxSystem.Each SelectsIdle .empty (.create OutboxSample.row :: OutboxSample.poll 0 2 0)) := by
  have hsome : (outboxSystem.run .empty (.create OutboxSample.row :: OutboxSample.poll 0 2 0)).isSome = true := by
    decide
  obtain ⟨s, hs⟩ := Option.isSome_iff_exists.mp hsome
  refine ⟨s, hs, (oneTaskEach_iff _).2 s hs fun p => ?_⟩
  obtain ⟨a, ha, hs⟩ := System.run_cons_eq_some.mp hs
  obtain ⟨b, hb, hs⟩ := System.run_cons_eq_some.mp hs
  obtain ⟨c, hc, hs⟩ := System.run_cons_eq_some.mp hs
  obtain ⟨d, hd, hs⟩ := System.run_cons_eq_some.mp hs
  obtain rfl := Option.some.inj hs
  obtain ⟨-, rfl⟩ := step_pollCommit (s := c) hd
  obtain ⟨id, ids, -, -, rfl⟩ := step_pollEnqueue (s := b) hc
  obtain ⟨-, -, locks, -, rfl⟩ := step_pollSelect (s := a) hb
  obtain ⟨-, rfl⟩ := step_create (s := .empty) ha
  show Function.update (Function.update (Function.update (fun _ => none) 0 _) 0 _) 0 none p = none
  by_cases hp : p = 0
  · rw [hp, Function.update_self]
  · rw [Function.update_of_ne hp, Function.update_of_ne hp, Function.update_of_ne hp]

/-- Two polls before the first task begins. -/
theorem two_tasks_for_one_row :
    ¬ ∀ (ls : List OutboxStep) (s : Outbox), outboxSystem.run .empty ls = some s → OneTaskEach s := by
  intro h
  have hrun : (outboxSystem.run .empty (.create OutboxSample.row ::
      OutboxSample.poll 0 2 0 ++ OutboxSample.poll 1 3 60000000)).map (fun s =>
        ((s.tasks 2).map Delivery.notification, (s.tasks 3).map Delivery.notification)) =
      some (some OutboxSample.row.id, some OutboxSample.row.id) := by
    decide
  obtain ⟨s, hs, heq⟩ := Option.map_eq_some_iff.mp hrun
  obtain ⟨h2, h3⟩ := Prod.mk.inj heq
  obtain ⟨t, ht, htid⟩ := Option.map_eq_some_iff.mp h2
  obtain ⟨u, hu, huid⟩ := Option.map_eq_some_iff.mp h3
  cases h _ s hs 2 3 t u ht hu (htid.trans huid.symm)

end ComplianceLoop
