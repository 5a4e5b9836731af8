import ComplianceLoop.Transition.Runs
import ComplianceLoop.Workers.Outbox

/-!
# What follows the commit of `SENT`

The `try` block of a delivery does not end with the commit that stores `SENT`: the metric, the log line and the result
come after it, and its handler counts an attempt and stores the reason on the row that has been committed.
`DeliveryAttempt.deliver` is the delivery with an exception at any of these statements. It is `deliverNotificationAsync`
where nothing raises (`deliver_eq_deliverNotificationAsync`). So a row that was committed as `SENT` stays as it is
exactly where no exception after the commit gets to the handler, or the handler cannot commit (`sentFinal_iff`).
-/

set_option autoImplicit false

namespace ComplianceLoop

open PyLib Transition

/-- The statements after the commit of `SENT`, in the order of the code. -/
inductive SentStatement where
  /-- `from observability.metrics import NOTIFICATION_SENT_TOTAL`. -/
  | importMetrics
  /-- `NOTIFICATION_SENT_TOTAL.labels(..)`, with the attributes that it reads. -/
  | labels
  | inc
  /-- `logger.info("notification.delivered", ..)`. -/
  | logDelivered
  /-- The dict that is returned. -/
  | result
  /-- The end of `async with get_session_context()`, which is not in the `try` block. -/
  | closeSession
  deriving DecidableEq

/-- The statement is in the `try` block. -/
def SentStatement.inTry : SentStatement → Bool
  | .closeSession => false
  | _ => true

/-- One delivery: what the dispatch does, and what raises after the commit of `SENT` and in the commit of the
handler. -/
structure DeliveryAttempt where
  notificationId : Text
  dispatch : NotificationOutbox → Except PyExc Unit
  now : Int
  /-- What the clock says in the handler. -/
  failedAt : Int
  afterSent : Option (SentStatement × PyExc)
  handlerCommit : Except PyExc Unit

/-- What a delivery leaves: `sent` is the row that it committed as `SENT`. -/
structure Delivered where
  result : Except PyExc DeliveryResult
  rows : List NotificationOutbox
  sent : Option NotificationOutbox

namespace DeliveryAttempt

variable (a : DeliveryAttempt)

/-- `except Exception as exc`: the exception that is raised in the end, and the rows. The commit stores nothing where it
raises. -/
def handle (id : Uuid) (exc : PyExc) (rows : List NotificationOutbox) : PyExc × List NotificationOutbox :=
  match a.handlerCommit with
  | .ok () => (exc, updateRow rows id fun n => n.markAttempt a.failedAt exc.msg)
  | .error e => (e, rows)

/-- The rows after the commit of `SENT`. -/
def commitSent (id : Uuid) (rows : List NotificationOutbox) : List NotificationOutbox :=
  updateRow rows id fun n => n.markSent a.now

/-- The statements after the commit of `SENT`: the result, and the rows. -/
def followSent (id : Uuid) (channel : NotificationChannel) (rows : List NotificationOutbox) :
    Except PyExc DeliveryResult × List NotificationOutbox :=
  match a.afterSent with
  | none => (.ok ⟨"sent".toList, some channel, a.notificationId⟩, rows)
  | some (p, exc) =>
    if p.inTry then (.error (a.handle id exc rows).1, (a.handle id exc rows).2)
    else (.error exc, rows)

/-- `_deliver_notification_async`, with its commits. -/
def deliver (rows : List NotificationOutbox) : Delivered :=
  match Uuid.parse a.notificationId with
  | none => ⟨raise .valueError "badly formed hexadecimal UUID string".toList, rows, none⟩
  | some id =>
    match findRow rows id with
    | none => ⟨.ok ⟨"not_found".toList, none, a.notificationId⟩, rows, none⟩
    | some n =>
      match n.guard with
      | .skip status => ⟨.ok ⟨status, none, a.notificationId⟩, rows, none⟩
      | .exhausted =>
        ⟨.ok ⟨"failed_max_retries".toList, none, a.notificationId⟩, updateRow rows id NotificationOutbox.exhaust, none⟩
      | .dispatch =>
        match a.dispatch n with
        | .error exc => ⟨.error (a.handle id exc rows).1, (a.handle id exc rows).2, none⟩
        | .ok () =>
          ⟨(a.followSent id n.channel (a.commitSent id rows)).1, (a.followSent id n.channel (a.commitSent id rows)).2,
            some (n.markSent a.now)⟩

/-- The delivery gets to the commit of `SENT` for this row. -/
def Sends (rows : List NotificationOutbox) (n : NotificationOutbox) : Prop :=
  Uuid.parse a.notificationId = some n.id ∧ findRow rows n.id = some n ∧ n.guard = .dispatch ∧ a.dispatch n = .ok ()

/-- No exception after the commit of `SENT` gets to the handler, or the handler cannot commit. -/
def LeavesSent : Prop := ∀ p ∈ a.afterSent, p.1.inTry = true → returned a.handlerCommit = false

instance : Decidable a.LeavesSent :=
  inferInstanceAs (Decidable (∀ p ∈ a.afterSent, p.1.inTry = true → returned a.handlerCommit = false))

end DeliveryAttempt

/-- The rows, and those that deliveries have committed as `SENT`, as they were then. -/
structure SentHistory where
  rows : List NotificationOutbox
  sent : List NotificationOutbox

/-- One delivery after the other. -/
def attemptSystem : System SentHistory DeliveryAttempt :=
  ⟨fun s a => some ⟨(a.deliver s.rows).rows, s.sent ++ (a.deliver s.rows).sent.toList⟩⟩

/-- Every row that was committed as `SENT` still is `SENT`, without a reason, and with the attempts it had then. -/
def SentFinal (s : SentHistory) : Prop :=
  ∀ m ∈ s.sent, ∃ n ∈ findRow s.rows m.id,
    n.status = .sent ∧ n.failureReason = none ∧ n.retryCount = m.retryCount

/-- If the delivery commits a row as `SENT`, the row is left so. -/
def KeepsSent (s : SentHistory) (a : DeliveryAttempt) : Prop := (∃ n, a.Sends s.rows n) → a.LeavesSent

/-! ## The row of a delivery -/

section

variable {rows : List NotificationOutbox} {id : Uuid} {f : NotificationOutbox → NotificationOutbox}

theorem findRow_updateRow_self (hf : ∀ n, (f n).id = n.id) :
    findRow (updateRow rows id f) id = (findRow rows id).map f := by
  induction rows with
  | nil => rfl
  | cons n rows ih =>
    rw [updateRow, List.map_cons, findRow, findRow]
    by_cases hn : n.id = id
    · rw [if_pos hn, List.find?_cons_of_pos (by simp [hf, hn]), List.find?_cons_of_pos (by simp [hn])]
      rfl
    · rw [if_neg hn, List.find?_cons_of_neg (by simp [hn]), List.find?_cons_of_neg (by simp [hn])]
      exact ih

theorem findRow_updateRow_of_ne {id' : Uuid} (hne : id' ≠ id) (hf : ∀ n, (f n).id = n.id) :
    findRow (updateRow rows id f) id' = findRow rows id' := by
  induction rows with
  | nil => rfl
  | cons n rows ih =>
    rw [updateRow, List.map_cons, findRow, findRow]
    by_cases hn : n.id = id
    · have hn' : n.id ≠ id' := fun h => hne (h.symm.trans hn)
      rw [if_pos hn, List.find?_cons_of_neg (by simp [hf, hn']), List.find?_cons_of_neg (by simp [hn'])]
      exact ih
    · rw [if_neg hn, List.find?_cons, List.find?_cons]
      split
      · rfl
      · exact ih

end

namespace DeliveryAttempt

variable {a : DeliveryAttempt} {rows : List NotificationOutbox} {n : NotificationOutbox}

/-- Where nothing raises after the commit and the handler commits at once, this is the delivery of the worker. -/
theorem deliver_eq_deliverNotificationAsync (hafter : a.afterSent = none) (hcommit : a.handlerCommit = .ok ())
    (hnow : a.failedAt = a.now) :
    ((a.deliver rows).result, (a.deliver rows).rows) =
      deliverNotificationAsync a.dispatch a.now a.notificationId rows := by
  unfold deliver deliverNotificationAsync
  cases Uuid.parse a.notificationId with
  | none => rfl
  | some id =>
    simp only
    cases findRow rows id with
    | none => rfl
    | some n =>
      simp only
      cases n.guard with
      | skip status => rfl
      | exhausted => rfl
      | dispatch =>
        simp only
        cases hd : a.dispatch n with
        | error exc => simp [handle, hcommit, hnow, NotificationOutbox.afterDispatch]
        | ok u => simp [followSent, hafter, commitSent, NotificationOutbox.afterDispatch]

theorem findRow_handle_of_ne {id id' : Uuid} (hne : id' ≠ id) (exc : PyExc) :
    findRow (a.handle id exc rows).2 id' = findRow rows id' := by
  unfold handle
  cases a.handlerCommit with
  | ok u => exact findRow_updateRow_of_ne hne fun n => n.id_markAttempt a.failedAt exc.msg
  | error e => rfl

/-- The statements after the commit: nothing happens to the rows, or the handler counts an attempt. -/
theorem followSent_snd (id : Uuid) (channel : NotificationChannel) (rows : List NotificationOutbox) :
    a.LeavesSent ∧ (a.followSent id channel rows).2 = rows ∨
      ¬ a.LeavesSent ∧ ∃ error, (a.followSent id channel rows).2 =
        updateRow rows id fun n => n.markAttempt a.failedAt error := by
  unfold followSent LeavesSent
  cases hafter : a.afterSent with
  | none => exact .inl ⟨fun p hp => (Option.not_mem_none p hp).elim, rfl⟩
  | some q =>
    obtain ⟨p, exc⟩ := q
    simp only [Option.mem_some_iff, forall_eq']
    cases hp : p.inTry with
    | false => exact .inl ⟨Bool.noConfusion, rfl⟩
    | true =>
      unfold handle
      cases hcommit : a.handlerCommit with
      | ok u => exact .inr ⟨fun h => Bool.noConfusion (h rfl), exc.msg, rfl⟩
      | error e => exact .inl ⟨fun _ => rfl, rfl⟩

theorem deliver_of_sends (h : a.Sends rows n) :
    a.deliver rows =
      ⟨(a.followSent n.id n.channel (a.commitSent n.id rows)).1,
        (a.followSent n.id n.channel (a.commitSent n.id rows)).2, some (n.markSent a.now)⟩ := by
  obtain ⟨hid, hn, hg, hd⟩ := h
  rw [deliver, hid]
  simp only [hn, hg, hd]

/-- A delivery that does not get to the commit of `SENT` leaves the rows that are `SENT` alone. -/
theorem deliver_of_not_sends (h : ¬ ∃ n, a.Sends rows n) :
    (a.deliver rows).sent = none ∧
      ∀ m id, findRow rows id = some m → m.status = .sent → findRow (a.deliver rows).rows id = some m := by
  unfold deliver
  cases hid : Uuid.parse a.notificationId with
  | none => exact ⟨rfl, fun m id hm _ => hm⟩
  | some id =>
    simp only
    cases hn : findRow rows id with
    | none => exact ⟨rfl, fun m id' hm _ => hm⟩
    | some n =>
      simp only
      -- the row of the delivery is not `SENT` where the delivery changes it
      have hother : n.status ≠ .sent → ∀ m id', findRow rows id' = some m → m.status = .sent → id' ≠ id := by
        rintro hns m id' hm hs rfl
        obtain rfl := Option.some.inj (hn.symm.trans hm)
        exact hns hs
      cases hg : n.guard with
      | skip status => exact ⟨rfl, fun m id' hm _ => hm⟩
      | exhausted =>
        refine ⟨rfl, fun m id' hm hs => ?_⟩
        have hne := hother (NotificationOutbox.guard_eq_exhausted hg) m id' hm hs
        exact (findRow_updateRow_of_ne hne NotificationOutbox.id_exhaust).trans hm
      | dispatch =>
        simp only
        cases hd : a.dispatch n with
        | error exc =>
          refine ⟨rfl, fun m id' hm hs => ?_⟩
          have hne := hother (NotificationOutbox.guard_eq_dispatch hg).1 m id' hm hs
          exact (findRow_handle_of_ne hne exc).trans hm
        | ok u =>
          obtain rfl := (findRow_eq_some hn).2
          exact absurd ⟨n, hid, hn, hg, hd⟩ h

/-- The rows after a delivery that commits its row as `SENT`: the row is left so, or the handler has counted an
attempt; the other rows are as before. -/
theorem findRow_deliver_of_sends (h : a.Sends rows n) :
    (∀ id, id ≠ n.id → findRow (a.deliver rows).rows id = findRow rows id) ∧
      (a.LeavesSent ∧ findRow (a.deliver rows).rows n.id = some (n.markSent a.now) ∨
        ¬ a.LeavesSent ∧ ∃ error, findRow (a.deliver rows).rows n.id =
          some ((n.markSent a.now).markAttempt a.failedAt error)) := by
  have hcommit : findRow (a.commitSent n.id rows) n.id = some (n.markSent a.now) := by
    rw [commitSent, findRow_updateRow_self fun n => n.id_markSent a.now, h.2.1]
    rfl
  have hother : ∀ id, id ≠ n.id → findRow (a.commitSent n.id rows) id = findRow rows id :=
    fun id hne => findRow_updateRow_of_ne hne fun n => n.id_markSent a.now
  rw [deliver_of_sends h]
  obtain ⟨hl, hrows⟩ | ⟨hl, error, hrows⟩ := a.followSent_snd n.id n.channel (a.commitSent n.id rows)
  · rw [hrows]
    exact ⟨hother, .inl ⟨hl, hcommit⟩⟩
  · rw [hrows]
    refine ⟨fun id hne => ?_, .inr ⟨hl, error, ?_⟩⟩
    · exact (findRow_updateRow_of_ne hne fun n => n.id_markAttempt a.failedAt error).trans (hother id hne)
    · rw [findRow_updateRow_self fun n => n.id_markAttempt a.failedAt error, hcommit]
      rfl

end DeliveryAttempt

/-! ## Runs -/

/-- A delivery keeps the rows final exactly when it leaves the row that it commits as `SENT`. -/
theorem sentFinal_step {s t : SentHistory} {a : DeliveryAttempt} (hs : SentFinal s)
    (h : attemptSystem.step s a = some t) : SentFinal t ↔ KeepsSent s a := by
  obtain rfl := Option.some.inj h
  by_cases hsends : ∃ n, a.Sends s.rows n
  · obtain ⟨n, hn⟩ := hsends
    have hnew : (a.deliver s.rows).sent = some (n.markSent a.now) := by rw [DeliveryAttempt.deliver_of_sends hn]
    have hkeeps : KeepsSent s a ↔ a.LeavesSent := ⟨fun hk => hk ⟨n, hn⟩, fun hl _ => hl⟩
    obtain ⟨hother, hrow⟩ := DeliveryAttempt.findRow_deliver_of_sends hn
    rw [hkeeps]
    constructor
    · intro ht
      obtain ⟨m, hm, -, -, hretry⟩ := ht (n.markSent a.now) (by simp [hnew])
      obtain ⟨hl, -⟩ | ⟨-, error, hrow⟩ := hrow
      · exact hl
      · obtain rfl := Option.some.inj (hrow.symm.trans hm)
        -- the handler has counted an attempt
        simp [NotificationOutbox.markAttempt, NotificationOutbox.markSent] at hretry
    · intro hl m hm
      simp only [hnew, Option.toList_some, List.mem_append, List.mem_singleton] at hm
      obtain hm | rfl := hm
      · obtain ⟨k, hk, hsent, hrest⟩ := hs m hm
        have hne : m.id ≠ n.id := by
          intro he
          rw [he] at hk
          obtain rfl := Option.some.inj (hn.2.1.symm.trans hk)
          exact (NotificationOutbox.guard_eq_dispatch hn.2.2.1).1 hsent
        exact ⟨k, (hother m.id hne).trans hk, hsent, hrest⟩
      · obtain ⟨-, hrow⟩ | ⟨hnl, -⟩ := hrow
        · exact ⟨n.markSent a.now, hrow, rfl, rfl, rfl⟩
        · exact absurd hl hnl
  · obtain ⟨hnone, hkeep⟩ := DeliveryAttempt.deliver_of_not_sends hsends
    refine iff_of_true (fun m hm => ?_) fun h => absurd h hsends
    simp only [hnone, Option.toList_none, List.append_nil] at hm
    obtain ⟨k, hk, hsent, hrest⟩ := hs m hm
    exact ⟨k, hkeep k m.id hk hsent, hsent, hrest⟩

/-- **In every sequence of deliveries the rows that were committed as `SENT` are final exactly when every delivery that
commits one leaves it so: no exception after the commit gets to the handler, or the handler cannot commit.** -/
theorem sentFinal_iff {s : SentHistory} (hs : SentFinal s) (attempts : List DeliveryAttempt) :
    attemptSystem.Always SentFinal s attempts ↔ attemptSystem.Each KeepsSent s attempts :=
  System.always_iff_each (I := fun _ => True) (fun _ hp h => ⟨trivial, sentFinal_step hp h⟩) trivial hs

namespace OutboxSample

/-- A row with one attempt left. -/
def lastAttempt : NotificationOutbox := { row with retryCount := 2 }

/-- A delivery whose dispatch returns; the log line raises after the commit. -/
def logRaises : DeliveryAttempt where
  notificationId := row.id.str
  dispatch := fun _ => .ok ()
  now := 0
  failedAt := 0
  afterSent := some (.logDelivered, ⟨.osError, "No space left on device".toList⟩)
  handlerCommit := .ok ()

/-- The session cannot be closed after the commit. -/
def closeRaises : DeliveryAttempt := { logRaises with afterSent := some (.closeSession, ⟨.osError, []⟩) }

end OutboxSample

/-- The theorem about a delivery whose session cannot be closed, and another one after it. -/
theorem sentFinal_iff_closeRaises :
    attemptSystem.Always SentFinal ⟨[OutboxSample.row], []⟩ [OutboxSample.closeRaises, OutboxSample.logRaises] ↔
      attemptSystem.Each KeepsSent ⟨[OutboxSample.row], []⟩ [OutboxSample.closeRaises, OutboxSample.logRaises] :=
  sentFinal_iff (fun _ h => absurd h List.not_mem_nil) _

/-- A row that was committed as `SENT` is `FAILED` after the log line has raised. -/
theorem not_sentFinal :
    ¬ ∀ (rows : List NotificationOutbox) (attempts : List DeliveryAttempt),
      attemptSystem.Always SentFinal ⟨rows, []⟩ attempts := by
  intro h
  have hlast := (h [OutboxSample.lastAttempt] [OutboxSample.logRaises]).2 _ rfl
  obtain ⟨n, hn, hsent, -, -⟩ := hlast (OutboxSample.lastAttempt.markSent 0) (by decide)
  have hrow : n.status = .failed := by
    have hfound : findRow (OutboxSample.logRaises.deliver [OutboxSample.lastAttempt]).rows OutboxSample.row.id =
        some ((OutboxSample.lastAttempt.markSent 0).markAttempt 0 "No space left on device".toList) := by
      decide
    obtain rfl := Option.some.inj (hfound.symm.trans hn)
    decide
  rw [hrow] at hsent
  cases hsent

end ComplianceLoop
