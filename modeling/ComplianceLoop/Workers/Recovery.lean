import ComplianceLoop.Transition.Reaching
import ComplianceLoop.Workers.Backoff
import ComplianceLoop.Workers.Crashes
import ComplianceLoop.Workers.Poll

/-!
# Notifications that can still be delivered

Whatever workers have stopped and whatever messages have gone, the locks are those of polls and dispatches that are
still running (`Live`). So a poll that goes on ends, and a poll on a quiet row finds it, or a hundred older ones, one
of which its task takes off the pending rows (`round`). A pending row with an attempt left can be delivered, then, by
workers that go on and dispatches that succeed; one without never is (`deliverable`).
-/

set_option autoImplicit false

namespace ComplianceLoop

open PyLib Transition

/-- A step of a worker that goes on; what it dispatches succeeds. -/
def GoesOn : OutboxStep → Prop
  | .create _ => False
  | .dispatch _ _ outcome => outcome = .ok ()
  | _ => True

/-- The notification has been sent. -/
def IsSent (id : Uuid) (o : Outbox) : Prop := ∃ m ∈ o.rows, m.id = id ∧ m.status = .sent

/-- Every lock is that of a poll or of a dispatch, and most numbers are free. -/
structure Live (o : Outbox) : Prop where
  inv : OutboxInv o
  held : ∀ id p, o.locks.Holds id p → o.polls p ≠ none ∨ o.Dispatching p id
  idle : ∃ N, ∀ p, N ≤ p → o.isIdle p = true

/-! ## What is running -/

section

variable {o o' : Outbox} {p q : Nat} {now : Int} {id : Uuid}

/-- Two numbers that are taken leave most free. -/
theorem idle_of_agree (p q : Nat) (h : ∃ N, ∀ p, N ≤ p → o.isIdle p = true)
    (hagree : ∀ r, r ≠ p → r ≠ q → o'.tasks r = o.tasks r ∧ o'.polls r = o.polls r) :
    ∃ N, ∀ p, N ≤ p → o'.isIdle p = true := by
  obtain ⟨N, hN⟩ := h
  refine ⟨max N (max (p + 1) (q + 1)), fun r hr => ?_⟩
  obtain ⟨htasks, hpolls⟩ := hagree r (by omega) (by omega)
  have hidle := hN r (by omega)
  rwa [Outbox.isIdle, htasks, hpolls]

/-- A task that is done with its row, or has not begun. -/
theorem Live.released (hl : Live o) (hi : OutboxInv o') {t : Option Delivery} {L : LockTable Uuid}
    (htasks : o'.tasks = Function.update o.tasks p t) (hpolls : o'.polls = o.polls) (hlocks : o'.locks = L.release p)
    (hL : ∀ k q, q ≠ p → L.Holds k q → o.locks.Holds k q) : Live o' := by
  refine ⟨hi, fun k q hk => ?_, idle_of_agree p p hl.idle fun r hr _ => ?_⟩
  · rw [hlocks] at hk
    obtain ⟨hk, hq⟩ := LockTable.holds_release.mp hk
    rw [hpolls]
    refine (hl.held k q (hL k q hq hk)).imp_right ?_
    rintro ⟨d, hd, hrest⟩
    exact ⟨d, htasks ▸ (Function.update_of_ne hq _ _).trans hd, hrest⟩
  · rw [htasks, hpolls]
    exact ⟨Function.update_of_ne hr _ _, rfl⟩

/-- A poll that is done. -/
theorem Live.pollReleased (hl : Live o) (hi : OutboxInv o') (htasks : o'.tasks = o.tasks)
    (hpolls : o'.polls = Function.update o.polls p none) (hlocks : o'.locks = o.locks.release p) : Live o' := by
  refine ⟨hi, fun k q hk => ?_, idle_of_agree p p hl.idle fun r hr _ => ?_⟩
  · rw [hlocks] at hk
    obtain ⟨hk, hq⟩ := LockTable.holds_release.mp hk
    rcases hl.held k q hk with h | ⟨d, hd, hrest⟩
    · left
      rw [hpolls, Function.update_of_ne hq]
      exact h
    · exact .inr ⟨d, htasks ▸ hd, hrest⟩
  · rw [htasks, hpolls]
    exact ⟨rfl, Function.update_of_ne hr _ _⟩

theorem Live.pollSelect {rows : List NotificationOutbox} (hl : Live o)
    (h : o.step (.pollSelect p now rows) = some o') : Live o' := by
  have hi := hl.inv.pollSelect h
  obtain ⟨-, -, L, hL, rfl⟩ := step_pollSelect h
  refine ⟨hi, fun k q hk => ?_, idle_of_agree p p hl.idle fun r hr _ =>
    ⟨rfl, Function.update_of_ne hr _ _⟩⟩
  by_cases hq : q = p
  · left
    rw [hq]
    show Function.update o.polls p _ p ≠ none
    rw [Function.update_self]
    exact Option.some_ne_none _
  · rcases (LockTable.holds_acquireAll hL).mp hk with hk | ⟨-, hp⟩
    · refine (hl.held k q hk).imp_left fun hpoll => ?_
      show Function.update o.polls p _ q ≠ none
      rwa [Function.update_of_ne hq]
    · exact absurd hp hq

theorem Live.pollEnqueue (hl : Live o) (h : o.step (.pollEnqueue p q now) = some o') : Live o' := by
  have hi := hl.inv.pollEnqueue h
  obtain ⟨id, ids, hp, hq, rfl⟩ := step_pollEnqueue h
  refine ⟨hi, fun k r hk => ?_, idle_of_agree p q hl.idle fun r hrp hrq =>
    ⟨Function.update_of_ne hrq _ _, Function.update_of_ne hrp _ _⟩⟩
  rcases hl.held k r hk with hr | ⟨d, hd, hrest⟩
  · left
    show Function.update o.polls p (some ids) r ≠ none
    by_cases hrp : r = p
    · rw [hrp, Function.update_self]
      exact Option.some_ne_none _
    · rwa [Function.update_of_ne hrp]
  · have hrq : r ≠ q := by
      rintro rfl
      rw [(Outbox.isIdle_iff.mp hq).1] at hd
      cases hd
    exact .inr ⟨d, (Function.update_of_ne hrq _ _).trans hd, hrest⟩

theorem Live.begin (hl : Live o) (h : o.step (.begin p now) = some o') : Live o' := by
  have hi := hl.inv.begin h
  obtain ⟨id, retries, eta, hp, ⟨-, hs⟩ | ⟨n, L, -, hL, hs⟩⟩ := step_begin h
  · -- a task that waits holds no lock
    have hnone : ∀ k, ¬ o.locks.Holds k p := by
      intro k hk
      rcases hl.held k p hk with hpoll | ⟨d, hd, -, hrun⟩
      · rw [hl.inv.apart p hpoll] at hp
        cases hp
      · rw [hp] at hd
        obtain rfl := Option.some.inj hd
        cases hrun
    subst hs
    refine ⟨hi, fun k q hk => ?_, idle_of_agree p p hl.idle fun r hr _ =>
      ⟨Function.update_of_ne hr _ _, rfl⟩⟩
    refine (hl.held k q hk).imp_right ?_
    rintro ⟨d, hd, hrest⟩
    have hq : q ≠ p := fun he => hnone k (he ▸ hk)
    exact ⟨d, (Function.update_of_ne hq _ _).trans hd, hrest⟩
  · have hback : ∀ k q, q ≠ p → L.Holds k q → o.locks.Holds k q := fun k q hq hk =>
      ((LockTable.holds_acquire hL).mp hk).resolve_right fun he => hq he.2
    rcases hs with hs | ⟨-, hs⟩ | ⟨-, hs⟩
    · exact hl.released hi (congrArg Outbox.tasks hs) (by rw [hs]) (congrArg Outbox.locks hs) hback
    · exact hl.released hi (congrArg Outbox.tasks hs) (by rw [hs]) (congrArg Outbox.locks hs) hback
    · subst hs
      refine ⟨hi, fun k q hk => ?_, idle_of_agree p p hl.idle fun r hr _ =>
        ⟨Function.update_of_ne hr _ _, rfl⟩⟩
      by_cases hq : q = p
      · subst hq
        rcases (LockTable.holds_acquire hL).mp hk with hk | ⟨rfl, -⟩
        · rcases hl.held k q hk with hpoll | ⟨d, hd, -, hrun⟩
          · exact .inl hpoll
          · rw [hp] at hd
            obtain rfl := Option.some.inj hd
            cases hrun
        · exact .inr ⟨_, Function.update_self _ _ _, rfl, rfl⟩
      · refine (hl.held k q (hback k q hq hk)).imp_right ?_
        rintro ⟨d, hd, hrest⟩
        exact ⟨d, (Function.update_of_ne hq _ _).trans hd, hrest⟩

/-- **Every step keeps what is running in order.** -/
theorem Live.step {l : OutboxStep} (hl : Live o) (h : outboxSystem.step o l = some o') : Live o' := by
  have hi := hl.inv.step h
  cases l with
  | create n =>
    obtain ⟨-, rfl⟩ := step_create h
    exact ⟨hi, hl.held, hl.idle⟩
  | pollSelect p now rows => exact hl.pollSelect h
  | pollEnqueue p q now => exact hl.pollEnqueue h
  | pollCommit p =>
    obtain ⟨-, hs⟩ := step_pollCommit h
    exact hl.pollReleased hi (by rw [hs]) (congrArg Outbox.polls hs) (congrArg Outbox.locks hs)
  | begin p now => exact hl.begin h
  | dispatch p now outcome =>
    obtain ⟨id, retries, -, hs⟩ := step_dispatch h
    exact hl.released hi (congrArg Outbox.tasks hs) (by rw [hs]) (congrArg Outbox.locks hs) fun _ _ _ hk => hk

theorem live_empty : Live .empty := ⟨outboxInv_empty, fun _ _ h => (nomatch h), 0, fun _ _ => rfl⟩

/-- Workers that stop leave no locks behind. -/
theorem live_workerStep {s s' : WorkerPool} {l : WorkerStep} (hl : Live s.outbox)
    (h : workerSystem.step s l = some s') : Live s'.outbox := by
  have hi := outboxInv_workerStep hl.inv h
  cases l with
  | step l =>
    obtain ⟨o, ho, rfl⟩ := step_step h
    exact hl.step ho
  | crash p now outcome =>
    obtain ⟨id, retries, hp, rfl⟩ := step_crash h
    exact hl.released hi rfl rfl rfl fun _ _ _ hk => hk
  | unacked l q now =>
    obtain ⟨p, d, o, hd, ho, hquiet, hq, rfl⟩ := step_unacked h
    have hlo := hl.step ho
    refine ⟨hi, fun k r hk => ?_, idle_of_agree q q hlo.idle fun r hr _ =>
      ⟨Function.update_of_ne hr _ _, rfl⟩⟩
    refine (hlo.held k r hk).imp_right ?_
    rintro ⟨t, ht, hid, hrun⟩
    refine ⟨t, (Function.update_of_ne ?_ _ _).trans ht, hid, hrun⟩
    -- nothing is dispatching under the number of the message
    rintro rfl
    rcases hq with rfl | hq
    · exact hquiet t ht hrun
    · rw [(Outbox.isIdle_iff.mp hq).1] at ht
      cases ht
  | pollCrash p =>
    obtain ⟨-, rfl⟩ := step_pollCrash h
    exact hl.pollReleased hi rfl rfl rfl
  | discard p =>
    obtain ⟨id, retries, eta, hp, rfl⟩ := step_discard h
    refine ⟨hi, fun k q hk => ?_, idle_of_agree p p hl.idle fun r hr _ =>
      ⟨Function.update_of_ne hr _ _, rfl⟩⟩
    rcases hl.held k q hk with hpoll | ⟨d, hd, hid, hrun⟩
    · exact .inl hpoll
    · refine .inr ⟨d, (Function.update_of_ne ?_ _ _).trans hd, hid, hrun⟩
      rintro rfl
      rw [hp] at hd
      obtain rfl := Option.some.inj hd
      cases hrun

end

/-! ## A poll ends -/

section

variable {o : Outbox} {p q : Nat} {n m : NotificationOutbox}

/-- A poll that goes on enqueues a task for each of its rows, and leaves the other tasks alone. -/
theorem canReach_enqueued (now : Int) {ids : List Uuid} (hl : Live o) (hp : o.polls p = some ids) :
    outboxSystem.CanReach GoesOn (fun t => Live t ∧ t.rows = o.rows ∧ t.locks = o.locks ∧ t.polls p = some [] ∧
      (∀ q d, o.tasks q = some d → t.tasks q = some d) ∧
        ∀ id ∈ ids, ∃ q, t.tasks q = some ⟨id, 0, .waiting now⟩) o := by
  induction ids generalizing o with
  | nil => exact .here ⟨hl, rfl, rfl, hp, fun _ _ h => h, List.forall_mem_nil _⟩
  | cons id ids ih =>
    obtain ⟨N, hN⟩ := hl.idle
    have hfree : o.isIdle N = true := hN N (Nat.le_refl N)
    have hstep : outboxSystem.step o (.pollEnqueue p N now) = some { o with
        tasks := Function.update o.tasks N (some ⟨id, 0, .waiting now⟩)
        polls := Function.update o.polls p (some ids) } := by
      simp only [outboxSystem, Outbox.step, hp, hfree, if_true]
    refine .next hstep trivial ((ih (hl.step hstep) (Function.update_self _ _ _)).bind ?_)
    rintro t ⟨ht, hrows, hlocks, hpoll, htasks, hall⟩
    refine .here ⟨ht, hrows, hlocks, hpoll, fun q d hd => htasks q d ?_, List.forall_mem_cons.mpr ⟨?_, hall⟩⟩
    · refine (Function.update_of_ne ?_ _ _).trans hd
      rintro rfl
      rw [(Outbox.isIdle_iff.mp hfree).1] at hd
      cases hd
    · exact ⟨N, htasks N _ (Function.update_self _ _ _)⟩

/-- A poll that goes on ends, and gives up its locks. -/
theorem canReach_polled (now : Int) {ids : List Uuid} (hl : Live o) (hp : o.polls p = some ids) :
    outboxSystem.CanReach GoesOn (fun t => Live t ∧ t.rows = o.rows ∧ t.locks = o.locks.release p ∧
      ∀ id ∈ ids, ∃ q, t.tasks q = some ⟨id, 0, .waiting now⟩) o := by
  refine (canReach_enqueued now hl hp).bind ?_
  rintro t ⟨ht, hrows, hlocks, hpoll, -, hall⟩
  have hstep : outboxSystem.step t (.pollCommit p) =
      some { t with locks := t.locks.release p, polls := Function.update t.polls p none } := by
    simp only [outboxSystem, Outbox.step, hpoll]
  refine .next hstep trivial (.here ⟨ht.step hstep, hrows, ?_, hall⟩)
  show t.locks.release p = _
  rw [hlocks]

/-! ## A task takes its row off the pending ones -/

/-- The task of a pending row that nobody has locked delivers it, or gives it up. -/
theorem canReach_delivered {retries : Nat} {eta : Int} (hl : Live o) (hm : m ∈ o.rows) (hpending : m.status = .pending)
    (hfree : o.locks.isFree m.id = true) (hq : o.tasks q = some ⟨m.id, retries, .waiting eta⟩) :
    outboxSystem.CanReach GoesOn (fun t => Live t ∧ ∃ f : NotificationOutbox → NotificationOutbox,
      (∀ n, (f n).id = n.id) ∧ t.rows = updateRow o.rows m.id f ∧ (f m).status ≠ .pending ∧
        (m.retryCount < m.maxRetries → (f m).status = .sent)) o := by
  obtain ⟨L, hL⟩ := LockTable.acquire_of_free (p := q) hfree
  have hrow := findRow_of_mem hl.inv.keyed hm
  by_cases hleft : m.maxRetries ≤ m.retryCount
  · have hguard : m.guard = .exhausted := by simp [NotificationOutbox.guard, hpending, hleft]
    have hstep : outboxSystem.step o (.begin q eta) = some { o with
        rows := updateRow o.rows m.id NotificationOutbox.exhaust
        locks := L.release q
        tasks := Function.update o.tasks q none } := by
      simp [outboxSystem, Outbox.step, hq, hrow, hL, hguard]
    exact .next hstep trivial (.here ⟨hl.step hstep, NotificationOutbox.exhaust, NotificationOutbox.id_exhaust, rfl,
      NotificationStatus.noConfusion, fun h => absurd h (Int.not_lt.mpr hleft)⟩)
  · have hguard : m.guard = .dispatch := by simp [NotificationOutbox.guard, hpending, hleft]
    have hbegin : outboxSystem.step o (.begin q eta) = some { o with
        locks := L
        tasks := Function.update o.tasks q (some ⟨m.id, retries, .running⟩) } := by
      simp [outboxSystem, Outbox.step, hq, hrow, hL, hguard]
    have hl' := hl.step hbegin
    generalize hmid : { o with
      locks := L
      tasks := Function.update o.tasks q (some ⟨m.id, retries, .running⟩) } = t at hbegin hl'
    have hrun : t.tasks q = some ⟨m.id, retries, .running⟩ := by
      rw [← hmid]
      exact Function.update_self _ _ _
    have hstep : outboxSystem.step t (.dispatch q eta (.ok ())) = some { t with
        rows := updateRow t.rows m.id fun n => n.afterDispatch eta (.ok ())
        locks := t.locks.release q
        dispatches := t.dispatches ++ [(m.id, true)]
        tasks := Function.update t.tasks q (Delivery.next ⟨m.id, retries, .running⟩ eta (.ok ())) } := by
      simp only [outboxSystem, Outbox.step, hrun]
      rfl
    refine .next hbegin trivial (.next hstep rfl (.here ⟨hl'.step hstep, fun n => n.markSent eta, fun n => rfl, ?_,
      NotificationStatus.noConfusion, fun _ => rfl⟩))
    show updateRow t.rows m.id _ = _
    rw [← hmid]
    rfl

/-- How many rows are pending. -/
def pendingCount (o : Outbox) : Nat := o.rows.countP (·.status = .pending)

theorem countP_updateRow_lt {rows : List NotificationOutbox} {f : NotificationOutbox → NotificationOutbox}
    (hkeyed : (rows.map NotificationOutbox.id).Nodup) (hm : m ∈ rows) (hpending : m.status = .pending)
    (hf : (f m).status ≠ .pending) :
    (updateRow rows m.id f).countP (·.status = .pending) < rows.countP (·.status = .pending) := by
  obtain ⟨before, after, rfl⟩ := List.append_of_mem hm
  have hsame : ∀ {l : List NotificationOutbox}, (∀ n ∈ l, n.id ≠ m.id) → updateRow l m.id f = l := by
    intro l hne
    exact (List.map_congr_left fun n hn => if_neg (hne n hn)).trans l.map_id'
  rw [List.map_append, List.map_cons, List.nodup_append, List.nodup_cons] at hkeyed
  obtain ⟨-, ⟨hafter, -⟩, hdisjoint⟩ := hkeyed
  have hb := hsame fun n hn he =>
    hdisjoint n.id (List.mem_map_of_mem hn) m.id List.mem_cons_self he
  have ha := hsame fun n hn he => hafter (he ▸ List.mem_map_of_mem hn)
  have hcut : updateRow (before ++ m :: after) m.id f = before ++ f m :: after := by
    rw [updateRow, List.map_append, List.map_cons, if_pos rfl]
    exact congr (congrArg _ hb) (congrArg _ ha)
  simp [hcut, List.countP_append, hpending, hf]

/-! ## One round -/

/-- A row that is pending, with an attempt left. -/
structure Deliverable (o : Outbox) (n : NotificationOutbox) : Prop where
  live : Live o
  mem : n ∈ o.rows
  pending : n.status = .pending
  left : n.retryCount < n.maxRetries

/-- Another poll and the task of one of its rows: the notification is sent, or fewer rows are pending. -/
theorem round_of_free (h : Deliverable o n) (hfree : o.locks.isFree n.id = true) :
    outboxSystem.CanReach GoesOn
      (fun t => IsSent n.id t ∨ Deliverable t n ∧ pendingCount t < pendingCount o) o := by
  obtain ⟨hl, hn, hpending, hleft⟩ := h
  let poll : Poll := ⟨n.nextRetryAt.getD 0, fun id => !o.locks.isFree id, fun u => u.int.val, fun u v huv => by
    cases u
    cases v
    exact congrArg Uuid.mk (Fin.ext huv)⟩
  have hcandidates : poll.candidates o.rows = o.candidates poll.now :=
    List.filter_congr fun m _ => by simp [poll]
  have hselects : PollSelects (o.candidates poll.now) (poll.enqueues o.rows) :=
    hcandidates ▸ Poll.pollSelects_enqueues hl.inv.keyed
  have hdue : n ∈ o.candidates poll.now := by
    refine List.mem_filter.mpr ⟨hn, ?_⟩
    cases hr : n.nextRetryAt <;> simp [NotificationOutbox.isDue, hpending, hfree, poll, hr]
  generalize poll.enqueues o.rows = rows at hselects
  generalize poll.now = now at hselects hdue
  obtain ⟨m, hm, hchosen⟩ : ∃ m ∈ rows, n ∈ rows → m = n := by
    by_cases hin : n ∈ rows
    · exact ⟨n, hin, fun _ => rfl⟩
    · have hlen := hselects.2.2.1
      have hpos := List.length_pos_of_mem hdue
      have hrows : 0 < rows.length := by
        rw [hlen, outboxPollBatchSize]
        omega
      exact ⟨rows.head (List.ne_nil_of_length_pos hrows), List.head_mem _, fun hin' => absurd hin' hin⟩
  have hsel : ∀ m ∈ rows, m ∈ o.rows ∧ m.status = .pending ∧ o.locks.isFree m.id = true := by
    intro m hm
    obtain ⟨hmem, hd⟩ := List.mem_filter.mp (hselects.2.1 m hm)
    simp only [NotificationOutbox.isDue, Bool.and_eq_true, decide_eq_true_eq] at hd
    exact ⟨hmem, hd.1.1, hd.2⟩
  obtain ⟨hmem, hmpending, hmfree⟩ := hsel m hm
  -- the poll
  obtain ⟨p, hp⟩ := hl.idle
  have hidle : o.isIdle p = true := hp p (Nat.le_refl p)
  have hunlocked : ∀ id ∈ rows.map NotificationOutbox.id, ∀ q, q ≠ p → ¬ o.locks.Holds id q := by
    intro id hid q _
    obtain ⟨r, hr, rfl⟩ := List.mem_map.mp hid
    exact LockTable.isFree_iff.mp (hsel r hr).2.2 q
  obtain ⟨L, hL⟩ := LockTable.acquireAll_of_free hunlocked
  have hstep : outboxSystem.step o (.pollSelect p now rows) = some { o with
      locks := L
      polls := Function.update o.polls p (some (rows.map NotificationOutbox.id)) } := by
    simp only [outboxSystem, Outbox.step, hidle, hselects, and_self, if_true, hL]
    rfl
  refine .next hstep trivial ((canReach_polled now (hl.step hstep) (Function.update_self _ _ _)).bind ?_)
  rintro t ⟨ht, hrows, hlocks, htasks⟩
  obtain ⟨q, hq⟩ := htasks m.id (List.mem_map_of_mem hm)
  -- the task
  have htfree : t.locks.isFree m.id = true := by
    refine LockTable.isFree_iff.mpr fun r hr => ?_
    rw [hlocks] at hr
    obtain ⟨hr, hne⟩ := LockTable.holds_release.mp hr
    rcases (LockTable.holds_acquireAll hL).mp hr with hr | ⟨-, he⟩
    · exact LockTable.isFree_iff.mp hmfree r hr
    · exact hne he
  have hrows' : t.rows = o.rows := hrows
  refine (canReach_delivered ht (hrows' ▸ hmem) hmpending htfree hq).bind ?_
  rintro u ⟨hu, f, hf, hurows, hdone, hsent⟩
  rw [hrows'] at hurows
  refine .here ?_
  by_cases hmn : m = n
  · subst hmn
    refine .inl ⟨f m, ?_, hf m, hsent hleft⟩
    rw [hurows]
    exact List.mem_map.mpr ⟨m, hmem, if_pos rfl⟩
  · have hid : n.id ≠ m.id := fun he => hmn (List.inj_on_of_nodup_map hl.inv.keyed hmem hn he.symm)
    refine .inr ⟨⟨hu, ?_, hpending, hleft⟩, ?_⟩
    · rw [hurows]
      exact List.mem_map.mpr ⟨n, hn, if_neg hid⟩
    · rw [pendingCount, hurows]
      exact countP_updateRow_lt hl.inv.keyed hmem hmpending hdone

/-- **A round: whoever has the lock of the row goes on first.** -/
theorem round (h : Deliverable o n) :
    outboxSystem.CanReach GoesOn
      (fun t => IsSent n.id t ∨ Deliverable t n ∧ pendingCount t < pendingCount o) o := by
  by_cases hfree : o.locks.isFree n.id = true
  · exact round_of_free h hfree
  · obtain ⟨q, hq⟩ : ∃ q, o.locks.Holds n.id q := by
      by_contra hno
      exact hfree (LockTable.isFree_iff.mpr fun q hq => hno ⟨q, hq⟩)
    rcases h.live.held n.id q hq with hpoll | ⟨⟨id, retries, phase⟩, hd, rfl, rfl⟩
    · obtain ⟨ids, hids⟩ := Option.ne_none_iff_exists'.mp hpoll
      refine (canReach_polled 0 h.live hids).bind ?_
      rintro t ⟨ht, hrows, hlocks, -⟩
      have hcount : pendingCount t = pendingCount o := by rw [pendingCount, pendingCount, hrows]
      rw [← hcount]
      refine round_of_free ⟨ht, hrows ▸ h.mem, h.pending, h.left⟩ (LockTable.isFree_iff.mpr fun r hr => ?_)
      rw [hlocks] at hr
      obtain ⟨hr, hne⟩ := LockTable.holds_release.mp hr
      exact hne (hr.unique hq)
    · have hstep : outboxSystem.step o (.dispatch q 0 (.ok ())) = some { o with
          rows := updateRow o.rows n.id fun m => m.afterDispatch 0 (.ok ())
          locks := o.locks.release q
          dispatches := o.dispatches ++ [(n.id, true)]
          tasks := Function.update o.tasks q (Delivery.next ⟨n.id, retries, .running⟩ 0 (.ok ())) } := by
        simp only [outboxSystem, Outbox.step, hd]
        rfl
      refine .next hstep rfl (.here (.inl ⟨n.markSent 0, ?_, rfl, rfl⟩))
      exact List.mem_map.mpr ⟨n, h.mem, if_pos rfl⟩

/-! ## A row that is given up -/

/-- A row without an attempt left, which was not sent. -/
structure GivenUp (id : Uuid) (o : Outbox) : Prop where
  inv : OutboxInv o
  row : ∃ m ∈ o.rows, m.id = id ∧ m.maxRetries ≤ m.retryCount ∧ m.status ≠ .sent

/-- What is dispatched has an attempt left. -/
theorem GivenUp.not_dispatching {id : Uuid} (h : GivenUp id o) (p : Nat) : ¬ o.Dispatching p id := by
  obtain ⟨hi, m, hm, hid, hmax, -⟩ := h
  intro hp
  obtain ⟨k, hk, hkid, hg⟩ := hi.ready p id hp
  obtain rfl : k = m := List.inj_on_of_nodup_map hi.keyed hk hm (hkid.trans hid.symm)
  exact absurd (NotificationOutbox.guard_eq_dispatch hg).2.2 (Int.not_lt.mpr hmax)

/-- Once a row is given up, no step brings it back. -/
theorem GivenUp.step {id : Uuid} {t : Outbox} {l : OutboxStep} (h : GivenUp id o)
    (hs : outboxSystem.step o l = some t) : GivenUp id t := by
  have hgiven := h
  obtain ⟨hi, m, hm, hid, hmax, hsent⟩ := h
  refine ⟨hi.step hs, ?_⟩
  have hother : ∀ {id' f}, id' ≠ id → m ∈ updateRow o.rows id' f := fun hne =>
    List.mem_map.mpr ⟨m, hm, if_neg fun he => hne (he.symm.trans hid)⟩
  cases l with
  | create n =>
    obtain ⟨-, rfl⟩ := step_create hs
    exact ⟨m, List.mem_append_left _ hm, hid, hmax, hsent⟩
  | pollSelect p now rows =>
    obtain ⟨-, -, -, -, rfl⟩ := step_pollSelect hs
    exact ⟨m, hm, hid, hmax, hsent⟩
  | pollEnqueue p q now =>
    obtain ⟨-, -, -, -, rfl⟩ := step_pollEnqueue hs
    exact ⟨m, hm, hid, hmax, hsent⟩
  | pollCommit p =>
    obtain ⟨-, rfl⟩ := step_pollCommit hs
    exact ⟨m, hm, hid, hmax, hsent⟩
  | begin p now =>
    obtain ⟨id', retries, eta, hp, ⟨-, rfl⟩ | ⟨k, L, hk, hL, rfl | ⟨-, rfl⟩ | ⟨-, rfl⟩⟩⟩ := step_begin hs
    · exact ⟨m, hm, hid, hmax, hsent⟩
    · exact ⟨m, hm, hid, hmax, hsent⟩
    · by_cases he : id' = id
      · exact ⟨m.exhaust, List.mem_map.mpr ⟨m, hm, if_pos (hid.trans he.symm)⟩, hid, hmax,
          NotificationStatus.noConfusion⟩
      · exact ⟨m, hother he, hid, hmax, hsent⟩
    · exact ⟨m, hm, hid, hmax, hsent⟩
  | dispatch p now outcome =>
    obtain ⟨id', retries, hp, rfl⟩ := step_dispatch hs
    exact ⟨m, hother fun he => hgiven.not_dispatching p ⟨_, hp, he, rfl⟩, hid, hmax, hsent⟩

theorem GivenUp.not_isSent {id : Uuid} (h : GivenUp id o) : ¬ IsSent id o := by
  obtain ⟨hi, m, hm, hid, -, hsent⟩ := h
  rintro ⟨k, hk, hkid, hks⟩
  obtain rfl : k = m := List.inj_on_of_nodup_map hi.keyed hk hm (hkid.trans hid.symm)
  exact hsent hks

theorem GivenUp.of_rows {id : Uuid} {t : Outbox} (h : GivenUp id o) (hi : OutboxInv t) (hrows : t.rows = o.rows) :
    GivenUp id t := ⟨hi, hrows ▸ h.row⟩

/-- What ends with a step is not a dispatch of it. -/
theorem GivenUp.count_endedBy {id : Uuid} {t : Outbox} {l : OutboxStep} (h : GivenUp id o)
    (hs : o.step l = some t) (b : Bool) : (WorkerPool.endedBy o l).count (id, b) = 0 := by
  refine List.count_eq_zero.mpr fun hmem => ?_
  cases l with
  | dispatch p now outcome =>
    obtain ⟨id', retries, hp, -⟩ := step_dispatch hs
    rw [WorkerPool.endedBy, hp] at hmem
    have he : id = id' := congrArg Prod.fst (List.mem_singleton.mp hmem)
    exact h.not_dispatching p ⟨_, hp, he.symm, rfl⟩
  | _ => exact List.not_mem_nil hmem

/-- The row is given up, and its dispatches that ended are as many as they were. -/
structure Abandoned (id : Uuid) (k : Bool → Nat) (s : WorkerPool) : Prop where
  givenUp : GivenUp id s.outbox
  ended : ∀ b, s.ended.count (id, b) = k b

/-- **Whatever stops, a row that is given up is not dispatched.** -/
theorem Abandoned.step {id : Uuid} {k : Bool → Nat} {s t : WorkerPool} {l : WorkerStep} (h : Abandoned id k s)
    (hs : workerSystem.step s l = some t) : Abandoned id k t := by
  obtain ⟨hg, hk⟩ := h
  have hi := outboxInv_workerStep hg.inv hs
  cases l with
  | step l =>
    obtain ⟨o, ho, rfl⟩ := step_step hs
    refine ⟨hg.step ho, fun b => ?_⟩
    rw [List.count_append, hg.count_endedBy ho, hk]
    rfl
  | crash p now outcome =>
    obtain ⟨id', retries, hp, rfl⟩ := step_crash hs
    have hne : id' ≠ id := fun he => hg.not_dispatching p ⟨_, hp, he, rfl⟩
    refine ⟨hg.of_rows hi rfl, fun b => ?_⟩
    have hzero : (outcome.map (id', ·)).toList.count (id, b) = 0 := by
      refine List.count_eq_zero.mpr fun hmem => ?_
      obtain ⟨c, -, he⟩ := Option.map_eq_some_iff.mp (Option.mem_toList.mp hmem)
      exact hne (congrArg Prod.fst he)
    rw [List.count_append, hzero, hk]
    rfl
  | unacked l q now =>
    obtain ⟨p, d, o, -, ho, -, -, rfl⟩ := step_unacked hs
    refine ⟨(hg.step ho).of_rows hi rfl, fun b => ?_⟩
    rw [List.count_append, hg.count_endedBy ho, hk]
    rfl
  | pollCrash p =>
    obtain ⟨-, rfl⟩ := step_pollCrash hs
    exact ⟨hg.of_rows hi rfl, hk⟩
  | discard p =>
    obtain ⟨-, -, -, -, rfl⟩ := step_discard hs
    exact ⟨hg.of_rows hi rfl, hk⟩

end

/-! ## Runs -/

/-- **Whatever has stopped before, a pending notification with an attempt left can still be delivered by workers that go
on; and one without an attempt left is never dispatched again, whatever stops after that.** -/
theorem deliverable {s : WorkerPool} {ls : List WorkerStep} (hrun : workerSystem.run .empty ls = some s)
    {n : NotificationOutbox} (hn : n ∈ s.outbox.rows) (hpending : n.status = .pending) :
    (n.retryCount < n.maxRetries → outboxSystem.CanReach GoesOn (IsSent n.id) s.outbox) ∧
      (n.maxRetries ≤ n.retryCount → ∀ ls' t, workerSystem.run s ls' = some t →
        ¬ IsSent n.id t.outbox ∧ (∀ p, ¬ t.outbox.Dispatching p n.id) ∧
          ∀ b, t.ended.count (n.id, b) = s.ended.count (n.id, b)) := by
  have hlive : Live s.outbox :=
    System.invariant_run (I := fun s => Live s.outbox) live_workerStep live_empty hrun
  constructor
  · intro hleft
    exact System.CanReach.of_variant (fun _ => round) (⟨hlive, hn, hpending, hleft⟩ : Deliverable s.outbox n)
  · intro hmax ls' t hrun'
    have hgiven : GivenUp n.id s.outbox := ⟨hlive.inv, n, hn, rfl, hmax, hpending ▸ NotificationStatus.noConfusion⟩
    have habandoned : Abandoned n.id (fun b => s.ended.count (n.id, b)) s := ⟨hgiven, fun _ => rfl⟩
    obtain ⟨hend, hcount⟩ := System.invariant_run Abandoned.step habandoned hrun'
    exact ⟨hend.not_isSent, hend.not_dispatching, hcount⟩

/-- A row that may not be tried. -/
def WorkerSample.untried : NotificationOutbox := { OutboxSample.row with maxRetries := 0 }

/-- The row is delivered after two workers have stopped; one that may not be tried is never dispatched. -/
theorem deliverable_stopped :
    (∃ s, workerSystem.run .empty WorkerSample.stopped = some s ∧
      outboxSystem.CanReach GoesOn (IsSent OutboxSample.row.id) s.outbox) ∧
      ∀ ls t, workerSystem.run .empty (.step (.create WorkerSample.untried) :: ls) = some t →
        ∀ b, t.ended.count (WorkerSample.untried.id, b) = 0 := by
  have hrun : (workerSystem.run .empty WorkerSample.stopped).map (fun s => s.outbox.rows) =
      some [OutboxSample.row] := by
    decide
  obtain ⟨s, hs, hrows⟩ := Option.map_eq_some_iff.mp hrun
  have hmem : OutboxSample.row ∈ s.outbox.rows := hrows ▸ List.mem_singleton_self _
  refine ⟨⟨s, hs, (deliverable hs hmem rfl).1 (by decide)⟩, fun ls t ht b => ?_⟩
  obtain ⟨u, hu, ht⟩ := System.run_cons_eq_some.mp ht
  have hone : workerSystem.run .empty [.step (.create WorkerSample.untried)] = some u :=
    System.run_cons_eq_some.mpr ⟨u, hu, rfl⟩
  have hfirst : WorkerPool.empty.step (.step (.create WorkerSample.untried)) = some u := hu
  obtain ⟨o, ho, rfl⟩ := step_step hfirst
  obtain ⟨-, rfl⟩ := step_create ho
  exact ((deliverable hone (List.mem_singleton_self _) rfl).2 (by decide) ls t ht).2.2 b

end ComplianceLoop
