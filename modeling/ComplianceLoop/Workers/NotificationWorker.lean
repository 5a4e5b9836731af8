import ComplianceLoop.PyLib.Uuid
import ComplianceLoop.PyLib.DateTime

/-!
# `workers/notification_worker.py`

Rows of the outbox, what a poll selects, and one delivery. `deliverNotificationAsync` is the delivery as the code runs
it: the guards, the dispatch, and what is written back. The guards and the two writes have definitions of their own,
because a delivery holds the lock of its row in between.

Times are instants, in microseconds.
-/

set_option autoImplicit false

namespace ComplianceLoop

open PyLib

/-- `NotificationStatus`. -/
inductive NotificationStatus where
  | pending
  | sent
  | failed
  | suppressed
  deriving DecidableEq, Repr

/-- `NotificationChannel`. -/
inductive NotificationChannel where
  | email
  | webhook
  deriving DecidableEq, Repr

/-- `NotificationType`. -/
inductive NotificationType where
  | decisionChange
  | reviewAssigned
  | breachAlert
  deriving DecidableEq, Repr

/-- A value of a payload; `other` is the text of one that is none of these. -/
inductive PayloadValue where
  | str (t : Text)
  | int (n : Int)
  | timestamp (w : DateTime)
  | other (json : Text)
  deriving DecidableEq

/-- A row of `notification_outbox`. -/
structure NotificationOutbox where
  id : Uuid
  notificationType : NotificationType
  channel : NotificationChannel
  recipientApplicationId : Option Uuid
  recipientEmail : Option Text
  payload : List (Text × PayloadValue)
  status : NotificationStatus
  retryCount : Int
  maxRetries : Int
  nextRetryAt : Option Int
  sentAt : Option Int
  failureReason : Option Text
  createdAt : Int
  isDemo : Bool
  deriving DecidableEq

/-- `OUTBOX_POLL_BATCH_SIZE`. -/
def outboxPollBatchSize : Nat := 100

/-- `RETRY_BACKOFF_SECONDS.get(n, 480)`. -/
def retryBackoffSeconds (n : Int) : Int := if n = 0 then 60 else if n = 1 then 120 else if n = 2 then 240 else 480

/-- A number of seconds later. -/
def secondsAfter (now seconds : Int) : Int := now + seconds * 1000000

/-- The `WHERE` clause of `_poll_outbox_async`. -/
def NotificationOutbox.isDue (now : Int) (n : NotificationOutbox) : Bool :=
  n.status = .pending && n.nextRetryAt.all (· ≤ now)

/-- The rows that `ORDER BY created_at LIMIT 100` may return of some candidates. -/
def PollSelects (candidates rows : List NotificationOutbox) : Prop :=
  rows.Nodup ∧ (∀ n ∈ rows, n ∈ candidates) ∧ rows.length = min outboxPollBatchSize candidates.length ∧
    rows.Pairwise (fun m n => m.createdAt ≤ n.createdAt) ∧
      ∀ n ∈ candidates, n ∈ rows ∨ ∀ m ∈ rows, m.createdAt ≤ n.createdAt

instance (candidates rows : List NotificationOutbox) : Decidable (PollSelects candidates rows) :=
  inferInstanceAs (Decidable (_ ∧ _))

/-- The dict that `_deliver_notification_async` returns. -/
structure DeliveryResult where
  status : Text
  channel : Option NotificationChannel
  notificationId : Text
  deriving DecidableEq

/-- What the checks before the dispatch decide. -/
inductive DeliveryGuard where
  /-- Return with this status. -/
  | skip (status : Text)
  /-- Give up. -/
  | exhausted
  | dispatch
  deriving DecidableEq

namespace NotificationOutbox

variable (n : NotificationOutbox)

/-- The checks before the dispatch. -/
def guard : DeliveryGuard :=
  if n.status = .sent then .skip "already_sent".toList
  else if n.status = .suppressed then .skip "suppressed".toList
  else if n.maxRetries ≤ n.retryCount then .exhausted
  else .dispatch

/-- The row when no attempt is left. -/
def exhaust : NotificationOutbox :=
  { n with
    status := .failed
    failureReason := some ("Max retries (".toList ++ (toString n.maxRetries).toList ++ ") exhausted".toList) }

/-- The row after a dispatch that succeeded. -/
def markSent (now : Int) : NotificationOutbox := { n with status := .sent, sentAt := some now, failureReason := none }

/-- The row after a dispatch that raised. -/
def markAttempt (now : Int) (error : Text) : NotificationOutbox :=
  { n with
    retryCount := n.retryCount + 1
    failureReason := some (error.take 500)
    nextRetryAt := some (secondsAfter now (retryBackoffSeconds (n.retryCount + 1)))
    status := if n.maxRetries ≤ n.retryCount + 1 then .failed else n.status }

/-- What is written back after the dispatch. -/
def afterDispatch (now : Int) : Except PyExc Unit → NotificationOutbox
  | .ok () => n.markSent now
  | .error e => n.markAttempt now e.msg

end NotificationOutbox

/-- The row with this id. -/
def findRow (rows : List NotificationOutbox) (id : Uuid) : Option NotificationOutbox := rows.find? (·.id = id)

/-- `UPDATE notification_outbox` of the row with this id. -/
def updateRow (rows : List NotificationOutbox) (id : Uuid) (f : NotificationOutbox → NotificationOutbox) :
    List NotificationOutbox := rows.map fun n => if n.id = id then f n else n

/-- `_deliver_notification_async`: its result, and the rows afterwards. The dispatch is an argument. -/
def deliverNotificationAsync (dispatch : NotificationOutbox → Except PyExc Unit) (now : Int) (notificationId : Text)
    (rows : List NotificationOutbox) : Except PyExc DeliveryResult × List NotificationOutbox :=
  match Uuid.parse notificationId with
  | none => (raise .valueError "badly formed hexadecimal UUID string".toList, rows)
  | some id =>
    match findRow rows id with
    | none => (.ok ⟨"not_found".toList, none, notificationId⟩, rows)
    | some n =>
      match n.guard with
      | .skip status => (.ok ⟨status, none, notificationId⟩, rows)
      | .exhausted =>
        (.ok ⟨"failed_max_retries".toList, none, notificationId⟩, updateRow rows id NotificationOutbox.exhaust)
      | .dispatch =>
        ((dispatch n).map fun _ => ⟨"sent".toList, some n.channel, notificationId⟩,
          updateRow rows id fun m => m.afterDispatch now (dispatch n))

/-! ## The columns a delivery leaves alone -/

namespace NotificationOutbox

variable {n : NotificationOutbox}

@[simp] theorem id_exhaust (n : NotificationOutbox) : n.exhaust.id = n.id := rfl

@[simp] theorem maxRetries_exhaust (n : NotificationOutbox) : n.exhaust.maxRetries = n.maxRetries := rfl

@[simp] theorem id_markSent (n : NotificationOutbox) (now : Int) : (n.markSent now).id = n.id := rfl

@[simp] theorem id_markAttempt (n : NotificationOutbox) (now : Int) (error : Text) :
    (n.markAttempt now error).id = n.id := rfl

@[simp] theorem id_afterDispatch (n : NotificationOutbox) (now : Int) (outcome : Except PyExc Unit) :
    (n.afterDispatch now outcome).id = n.id := by
  cases outcome <;> rfl

@[simp] theorem maxRetries_afterDispatch (n : NotificationOutbox) (now : Int) (outcome : Except PyExc Unit) :
    (n.afterDispatch now outcome).maxRetries = n.maxRetries := by
  cases outcome <;> rfl

/-- When the guards let a dispatch happen. -/
theorem guard_eq_dispatch (h : n.guard = .dispatch) :
    n.status ≠ .sent ∧ n.status ≠ .suppressed ∧ n.retryCount < n.maxRetries := by
  unfold guard at h
  split at h
  · cases h
  · rename_i h1
    split at h
    · cases h
    · rename_i h2
      split at h
      · cases h
      · rename_i h3
        exact ⟨h1, h2, Int.not_le.mp h3⟩

/-- A row that is given up was not sent. -/
theorem guard_eq_exhausted (h : n.guard = .exhausted) : n.status ≠ .sent := by
  intro hs
  rw [guard, if_pos hs] at h
  cases h

end NotificationOutbox

theorem map_id_updateRow (rows : List NotificationOutbox) (id : Uuid) {f : NotificationOutbox → NotificationOutbox}
    (hf : ∀ n, (f n).id = n.id) : (updateRow rows id f).map NotificationOutbox.id = rows.map NotificationOutbox.id := by
  rw [updateRow, List.map_map]
  refine List.map_congr_left fun n _ => ?_
  show (if n.id = id then f n else n).id = n.id
  split
  · exact hf n
  · rfl

theorem findRow_eq_some {rows : List NotificationOutbox} {id : Uuid} {n : NotificationOutbox}
    (h : findRow rows id = some n) : n ∈ rows ∧ n.id = id := by
  have hid := List.find?_some h
  exact ⟨List.mem_of_find?_eq_some h, of_decide_eq_true hid⟩

end ComplianceLoop
