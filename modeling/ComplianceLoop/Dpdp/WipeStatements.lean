import ComplianceLoop.Dpdp.RetentionEnforcer
import ComplianceLoop.Transition.Statements

/-!
# A batch of the nightly wipe, statement by statement

The body of the loop of `_wipe_batch` changes a tracked row one column after the other; an exception at any statement is
counted and swallowed, and the shared commit writes whatever the row holds by then. `wipeBody` is the body with a fault
at one of its statements, and `atomicBatch_iff` says after which faults every row of the batch is wiped in full with its
event, or as before.
-/

set_option autoImplicit false

namespace ComplianceLoop

open PyLib Transition

/-- The personal columns, in the order in which they are wiped. -/
inductive PiiField where
  | payloadEncrypted
  | collateralValue
  | cityTier
  deriving DecidableEq

namespace PiiField

def name : PiiField → Text
  | payloadEncrypted => "payload_encrypted".toList
  | collateralValue => "collateral_value".toList
  | cityTier => "city_tier".toList

def isNull : PiiField → Application → Bool
  | payloadEncrypted, a => a.payloadEncrypted.isNone
  | collateralValue, a => a.collateralValue.isNone
  | cityTier, a => a.cityTier.isNone

/-- `app.field = None`. -/
def clear : PiiField → Application → Application
  | payloadEncrypted, a => { a with payloadEncrypted := none }
  | collateralValue, a => { a with collateralValue := none }
  | cityTier, a => { a with cityTier := none }

/-- The columns that are wiped before this one. -/
def before : PiiField → List PiiField
  | payloadEncrypted => []
  | collateralValue => [payloadEncrypted]
  | cityTier => [payloadEncrypted, collateralValue]

end PiiField

/-- The statements of the body at which an exception may be raised. -/
inductive WipeStatement where
  /-- `app.field is not None`. -/
  | read (f : PiiField)
  /-- `app.field = None`. -/
  | assign (f : PiiField)
  /-- `fields_wiped.append`. -/
  | append (f : PiiField)
  /-- `app.retention_wiped = True`. -/
  | retentionWiped
  /-- `app.retention_wiped_at = now`. -/
  | retentionWipedAt
  /-- `RetentionEvent(...)`. -/
  | retentionEvent
  /-- `db.add(retention_event)`. -/
  | add
  /-- `logger.info(...)`. -/
  | log
  deriving DecidableEq

/-- The tracked row and the variables of the body. -/
structure WipeProgress where
  app : Application
  fieldsWiped : List Text
  event : Option RetentionEvent
  /-- What `db.add` was given. -/
  added : List RetentionEvent
  wiped : Nat

/-- Where the wipes of a batch raise. -/
structure WipeFaults where
  /-- The statement of the body that raises. -/
  statement : Uuid → Option WipeStatement
  /-- Whether the `logger.error` of the handler raises. -/
  handler : Uuid → Bool

section

variable (fault : Option WipeStatement)

/-- The `if` statement of one personal column. -/
def wipeField (f : PiiField) (p : WipeProgress) : Except WipeProgress WipeProgress := do
  let p ← statement fault (.read f) id p
  if f.isNull p.app then pure p
  else do
    let p ← statement fault (.assign f) (fun p => { p with app := f.clear p.app }) p
    statement fault (.append f) (fun p => { p with fieldsWiped := p.fieldsWiped ++ [f.name] }) p

/-- The `try` block. -/
def wipeBody (now : DateTime) (taskRunId : Text) (policyDays : Int) (app : Application) :
    Except WipeProgress WipeProgress := do
  let p ← wipeField fault .payloadEncrypted ⟨app, [], none, [], 0⟩
  let p ← wipeField fault .collateralValue p
  let p ← wipeField fault .cityTier p
  let p ← statement fault .retentionWiped (fun p => { p with app := { p.app with retentionWiped := true } }) p
  let p ← statement fault .retentionWipedAt (fun p => { p with app := { p.app with retentionWipedAt := some now } }) p
  let p ← statement fault .retentionEvent (fun p =>
    { p with
      event := some {
        applicationId := p.app.id
        wipedAt := now
        wipeTaskRunId := taskRunId
        fieldsWiped := if p.fieldsWiped.isEmpty then "none".toList else [','].intercalate p.fieldsWiped
        retentionPolicyDays := policyDays
        dataRetentionExpiresAtSnapshot := p.app.dataRetentionExpiresAt } }) p
  let p ← statement fault .add (fun p => { p with added := p.event.toList, wiped := 1 }) p
  statement fault .log id p

end

/-- The tracked row in the table. -/
def putRow (a : Application) (rows : List Application) : List Application :=
  rows.map fun r => if r.id = a.id then a else r

namespace WipeTask

variable (task : WipeTask) (faults : WipeFaults)

/-- How the body ends for an application. -/
def outcome (now : DateTime) (app : Application) : Except WipeProgress WipeProgress :=
  wipeBody (faults.statement app.id) now task.taskRunId task.policyDays app

/-- The body of the loop, with its handler; `none` when the exception leaves the session. -/
def wipeOneAt (now : DateTime) (s : BatchState) (app : Application) : Option BatchState :=
  let result := task.outcome faults now app
  let p := stopped result
  if raised result && faults.handler app.id then none
  else some
    { db := { applications := putRow p.app s.db.applications, events := s.db.events ++ p.added }
      wiped := s.wiped + p.wiped
      errors := if raised result then s.errors + 1 else s.errors }

/-- `_wipe_batch` with these faults: `none` when it raises, and the session is rolled back. -/
def wipeBatchAt (k : Nat) (db : RetentionDb) : Option BatchState :=
  if (task.selected k db).isEmpty then some ⟨db, 0, 0⟩
  else (task.selected k db).foldlM (task.wipeOneAt faults (task.clock k)) ⟨db, 0, 0⟩

end WipeTask

/-! ## One application -/

/-- The body does not raise at this statement, or raises before it has changed the row. -/
def Application.harmless (a : Application) : Option WipeStatement → Bool
  | none => true
  | some (.read f) => f.before.all (·.isNull a)
  | some (.assign f) => f.isNull a || f.before.all (·.isNull a)
  | some (.append f) => f.isNull a
  | some .retentionWiped => a.piiFields.isEmpty
  | some _ => false

/-- Nothing has been changed. -/
def WipeProgress.Untouched (a : Application) (p : WipeProgress) : Prop := p.app = a ∧ p.added = [] ∧ p.wiped = 0

/-- Everything has been changed, and the event has been added. -/
def WipeProgress.Full (now : DateTime) (taskRunId : Text) (policyDays : Int) (a : Application) (p : WipeProgress) :
    Prop := p.app = a.wipe now ∧ p.added = [a.retentionEvent now taskRunId policyDays] ∧ p.wiped = 1

section

variable (now : DateTime) (taskRunId : Text) (policyDays : Int)

theorem wipeBody_none (a : Application) :
    ∃ p, wipeBody none now taskRunId policyDays a = .ok p ∧ p.Full now taskRunId policyDays a := by
  obtain ⟨id, applicantId, panHmac, collateral, city, consent, payload, expires, wiped, wipedAt, demo⟩ := a
  cases payload <;> cases collateral <;> cases city <;> exact ⟨_, rfl, rfl, rfl, rfl⟩

/-- A fault that does no harm leaves the row as it was, or is not reached. -/
theorem wipeBody_of_harmless {a : Application} {fault : Option WipeStatement} (h : a.harmless fault = true) :
    (∃ p, wipeBody fault now taskRunId policyDays a = .ok p ∧ p.Full now taskRunId policyDays a) ∨
      ∃ p, wipeBody fault now taskRunId policyDays a = .error p ∧ p.Untouched a := by
  obtain ⟨id, applicantId, panHmac, collateral, city, consent, payload, expires, wiped, wipedAt, demo⟩ := a
  cases payload <;> cases collateral <;> cases city <;>
    rcases fault with _ | ⟨_ | _ | _⟩ | ⟨_ | _ | _⟩ | ⟨_ | _ | _⟩ | _ | _ | _ | _ | _ <;>
      first
        | exact .inl ⟨_, rfl, rfl, rfl, rfl⟩
        | exact .inr ⟨_, rfl, rfl, rfl, rfl⟩
        | cases h

/-- Any other one leaves the row half wiped and without its event, or is counted for a row that is wiped in full. -/
theorem wipeBody_of_harmful {a : Application} {fault : Option WipeStatement} (hw : a.retentionWiped = false)
    (h : a.harmless fault = false) :
    ∃ p, wipeBody fault now taskRunId policyDays a = .error p ∧
      (p.Full now taskRunId policyDays a ∨ p.app ≠ a ∧ p.added = [] ∧ p.wiped = 0) := by
  obtain ⟨id, applicantId, panHmac, collateral, city, consent, payload, expires, wiped, wipedAt, demo⟩ := a
  obtain rfl : wiped = false := hw
  cases payload <;> cases collateral <;> cases city <;>
    rcases fault with _ | ⟨_ | _ | _⟩ | ⟨_ | _ | _⟩ | ⟨_ | _ | _⟩ | _ | _ | _ | _ | _ <;>
      first
        | (cases h; done)
        | exact ⟨_, rfl, .inl ⟨rfl, rfl, rfl⟩⟩
        | exact ⟨_, rfl, .inr ⟨fun he => (by cases he), rfl, rfl⟩⟩

end

section

/-- The row keeps its id, and the event is one of this application. -/
structure WipeProgress.Concerns (id : Uuid) (p : WipeProgress) : Prop where
  app : p.app.id = id
  event : ∀ e ∈ p.event, e.applicationId = id
  added : ∀ e ∈ p.added, e.applicationId = id

variable {fault : Option WipeStatement} {now : DateTime} {taskRunId : Text} {policyDays : Int} {id : Uuid}

theorem wipeField_concerns (f : PiiField) {p : WipeProgress} (h : p.Concerns id) :
    (stopped (wipeField fault f p)).Concerns id := by
  have hclear : ∀ q : WipeProgress, q.Concerns id → ({ q with app := f.clear q.app } : WipeProgress).Concerns id := by
    rintro q ⟨happ, hevent, hadded⟩
    exact ⟨by cases f <;> exact happ, hevent, hadded⟩
  refine stopped_bind (stopped_statement h h) fun q hq => ?_
  split
  · exact hq
  · refine stopped_bind (stopped_statement hq (hclear q hq)) fun q' hq' => ?_
    exact stopped_statement hq' ⟨hq'.app, hq'.event, hq'.added⟩

theorem wipeBody_concerns (a : Application) :
    (stopped (wipeBody fault now taskRunId policyDays a)).Concerns a.id := by
  have hstart : (⟨a, [], none, [], 0⟩ : WipeProgress).Concerns a.id :=
    ⟨rfl, fun _ h => (by cases h), fun _ h => (by cases h)⟩
  refine stopped_bind (wipeField_concerns _ hstart) fun p hp => ?_
  refine stopped_bind (wipeField_concerns _ hp) fun p hp => ?_
  refine stopped_bind (wipeField_concerns _ hp) fun p hp => ?_
  refine stopped_bind (stopped_statement hp ⟨hp.app, hp.event, hp.added⟩) fun p hp => ?_
  refine stopped_bind (stopped_statement hp ⟨hp.app, hp.event, hp.added⟩) fun p hp => ?_
  refine stopped_bind (stopped_statement hp ⟨hp.app, ?_, hp.added⟩) fun p hp => ?_
  · rintro e ⟨⟩
    exact hp.app
  refine stopped_bind (stopped_statement hp ⟨hp.app, hp.event, ?_⟩) fun p hp => ?_
  · exact fun e he => hp.event e (Option.mem_toList.mp he)
  exact stopped_statement hp hp

end

/-! ## What the tables hold for one application -/

namespace RetentionDb

/-- The rows with this id. -/
def rowsOf (id : Uuid) (db : RetentionDb) : List Application := db.applications.filter (·.id = id)

/-- The events of this application. -/
def eventsOf (id : Uuid) (db : RetentionDb) : List RetentionEvent := db.events.filter (·.applicationId = id)

theorem Keyed.rowsOf_eq {db : RetentionDb} (hk : db.Keyed) {a : Application} (ha : a ∈ db.applications) :
    db.rowsOf a.id = [a] := by
  obtain ⟨before, after, happ⟩ := List.append_of_mem ha
  rw [Keyed, happ, List.map_append, List.map_cons, List.nodup_append, List.nodup_cons] at hk
  have hnone : ∀ rows : List Application, a.id ∉ rows.map Application.id → rows.filter (·.id = a.id) = [] := by
    intro rows hn
    rw [List.filter_eq_nil_iff]
    intro r hr he
    exact hn (of_decide_eq_true he ▸ List.mem_map_of_mem hr)
  rw [rowsOf, happ, List.filter_append, List.filter_cons_of_pos (by simp), hnone after hk.2.1.1,
    hnone before fun hb => hk.2.2 _ hb _ List.mem_cons_self rfl, List.nil_append]

/-- Another row is written, and events of another application are added. -/
theorem rowsOf_putRow {db : RetentionDb} {a : Application} {id : Uuid} (h : a.id ≠ id) (events : List RetentionEvent) :
    RetentionDb.rowsOf id ⟨putRow a db.applications, events⟩ = db.rowsOf id := by
  unfold rowsOf putRow
  induction db.applications with
  | nil => rfl
  | cons r rows ih =>
    rw [List.map_cons]
    by_cases hr : r.id = a.id
    · rw [if_pos hr, List.filter_cons_of_neg (by simpa using h), List.filter_cons_of_neg (by simpa [hr] using h), ih]
    · rw [if_neg hr, List.filter_cons, List.filter_cons, ih]

/-- The row itself is written. -/
theorem rowsOf_putRow_self (db : RetentionDb) (b : Application) (events : List RetentionEvent) :
    RetentionDb.rowsOf b.id ⟨putRow b db.applications, events⟩ = (db.rowsOf b.id).map fun _ => b := by
  unfold rowsOf putRow
  induction db.applications with
  | nil => rfl
  | cons r rows ih =>
    rw [List.map_cons]
    by_cases hr : r.id = b.id
    · rw [if_pos hr, List.filter_cons_of_pos (by simp), List.filter_cons_of_pos (by simpa using hr), List.map_cons, ih]
    · rw [if_neg hr, List.filter_cons_of_neg (by simpa using hr), List.filter_cons_of_neg (by simpa using hr), ih]

end RetentionDb

/-! ## The batch -/

namespace WipeTask

variable {task : WipeTask} {faults : WipeFaults} {now : DateTime}

/-- How far the body gets for an application. -/
def progress (task : WipeTask) (faults : WipeFaults) (now : DateTime) (a : Application) : WipeProgress :=
  stopped (task.outcome faults now a)

/-- Whether an error is counted for an application. -/
def counted (task : WipeTask) (faults : WipeFaults) (now : DateTime) (a : Application) : Bool :=
  raised (task.outcome faults now a)

theorem progress_concerns (task : WipeTask) (faults : WipeFaults) (now : DateTime) (a : Application) :
    (task.progress faults now a).Concerns a.id := wipeBody_concerns a

/-- One application: its row, its events and its counts. -/
theorem wipeOneAt_eq_some {s t : BatchState} {a : Application} (h : task.wipeOneAt faults now s a = some t) :
    t.wiped = s.wiped + (task.progress faults now a).wiped ∧
      t.errors = s.errors + (if task.counted faults now a then 1 else 0) ∧
      (s.db.rowsOf a.id = [a] → t.db.rowsOf a.id = [(task.progress faults now a).app]) ∧
      t.db.eventsOf a.id = s.db.eventsOf a.id ++ (task.progress faults now a).added ∧
      ∀ id ≠ a.id, t.db.rowsOf id = s.db.rowsOf id ∧ t.db.eventsOf id = s.db.eventsOf id := by
  have hp := task.progress_concerns faults now a
  unfold wipeOneAt at h
  dsimp only at h
  split at h
  · cases h
  · obtain rfl := Option.some.inj h
    refine ⟨rfl, ?_, ?_, ?_, ?_⟩
    · unfold counted
      split <;> rfl
    · intro hrow
      have hself := RetentionDb.rowsOf_putRow_self s.db (task.progress faults now a).app
        (s.db.events ++ (task.progress faults now a).added)
      rw [hp.app, hrow] at hself
      exact hself
    · have hall : (task.progress faults now a).added.filter (·.applicationId = a.id) =
          (task.progress faults now a).added :=
        List.filter_eq_self.mpr fun e he => decide_eq_true (hp.added e he)
      exact (List.filter_append _ _).trans (congrArg (s.db.eventsOf a.id ++ ·) hall)
    · intro id hid
      refine ⟨RetentionDb.rowsOf_putRow (fun he => hid (he.symm.trans hp.app)) _, ?_⟩
      have hnone : (task.progress faults now a).added.filter (·.applicationId = id) = [] :=
        List.filter_eq_nil_iff.mpr fun e he heq => hid ((of_decide_eq_true heq).symm.trans (hp.added e he))
      exact (List.filter_append _ _).trans ((congrArg (s.db.eventsOf id ++ ·) hnone).trans (List.append_nil _))

/-- What the loop does to the applications of the batch, and to nothing else. -/
theorem foldlM_wipeOneAt {batch : List Application} : ∀ {s r : BatchState},
    batch.foldlM (task.wipeOneAt faults now) s = some r → (batch.map Application.id).Nodup →
    (∀ a ∈ batch, s.db.rowsOf a.id = [a]) →
    r.wiped = s.wiped + (batch.map fun a => (task.progress faults now a).wiped).sum ∧
      r.errors = s.errors + batch.countP (task.counted faults now) ∧
      (∀ a ∈ batch, r.db.rowsOf a.id = [(task.progress faults now a).app] ∧
        r.db.eventsOf a.id = s.db.eventsOf a.id ++ (task.progress faults now a).added) ∧
      ∀ id ∉ batch.map Application.id, r.db.rowsOf id = s.db.rowsOf id ∧ r.db.eventsOf id = s.db.eventsOf id := by
  induction batch with
  | nil =>
    intro s r h _ _
    obtain rfl := Option.some.inj h
    exact ⟨rfl, rfl, fun _ ha => absurd ha List.not_mem_nil, fun _ _ => ⟨rfl, rfl⟩⟩
  | cons a batch ih =>
    intro s r h hn hrows
    rw [List.foldlM_cons] at h
    obtain ⟨t, ht, h⟩ := Option.bind_eq_some_iff.mp h
    obtain ⟨hwiped, herrors, hrow, hevents, hothers⟩ := wipeOneAt_eq_some ht
    rw [List.map_cons, List.nodup_cons] at hn
    have hne : ∀ b ∈ batch, b.id ≠ a.id := fun b hb he => hn.1 (he ▸ List.mem_map_of_mem hb)
    have hrest : ∀ b ∈ batch, t.db.rowsOf b.id = [b] := fun b hb =>
      (hothers b.id (hne b hb)).1.trans (hrows b (List.mem_cons_of_mem a hb))
    obtain ⟨hwiped', herrors', hdone, hframe⟩ := ih h hn.2 hrest
    refine ⟨?_, ?_, ?_, ?_⟩
    · rw [hwiped', hwiped, List.map_cons, List.sum_cons, Nat.add_assoc]
    · rw [herrors', herrors, List.countP_cons]
      omega
    · intro b hb
      rcases List.mem_cons.mp hb with rfl | hb
      · obtain ⟨hr, he⟩ := hframe b.id hn.1
        exact ⟨hr.trans (hrow (hrows b List.mem_cons_self)), he.trans hevents⟩
      · obtain ⟨hr, he⟩ := hdone b hb
        exact ⟨hr, he.trans (by rw [(hothers b.id (hne b hb)).2])⟩
    · intro id hid
      rw [List.map_cons, List.mem_cons, not_or] at hid
      obtain ⟨hr, he⟩ := hframe id hid.2
      obtain ⟨hr', he'⟩ := hothers id hid.1
      exact ⟨hr.trans hr', he.trans he'⟩

/-- The row is wiped in full and has its event. -/
def FullyWiped (task : WipeTask) (k : Nat) (db : RetentionDb) (r : BatchState) (a : Application) : Prop :=
  r.db.rowsOf a.id = [a.wipe (task.clock k)] ∧
    r.db.eventsOf a.id = db.eventsOf a.id ++ [a.retentionEvent (task.clock k) task.taskRunId task.policyDays]

/-- The row is as it was, without a new event. -/
def LeftAlone (db : RetentionDb) (r : BatchState) (a : Application) : Prop :=
  r.db.rowsOf a.id = [a] ∧ r.db.eventsOf a.id = db.eventsOf a.id

instance (k : Nat) (db : RetentionDb) (r : BatchState) (a : Application) :
    Decidable (task.FullyWiped k db r a) := inferInstanceAs (Decidable (_ ∧ _))

instance (db : RetentionDb) (r : BatchState) (a : Application) : Decidable (LeftAlone db r a) :=
  inferInstanceAs (Decidable (_ ∧ _))

/-- Every application of the batch is fully wiped or left alone, and the counts are those of the two kinds. -/
structure AtomicBatch (task : WipeTask) (k : Nat) (db : RetentionDb) (r : BatchState) : Prop where
  each : ∀ a ∈ task.selected k db, task.FullyWiped k db r a ∨ LeftAlone db r a
  wiped : r.wiped = (task.selected k db).countP fun a => task.FullyWiped k db r a
  errors : r.errors = (task.selected k db).countP fun a => LeftAlone db r a

/-- How the body ends for a selected application. -/
theorem progress_cases (task : WipeTask) (faults : WipeFaults) (now : DateTime) {a : Application}
    (hw : a.retentionWiped = false) :
    (a.harmless (faults.statement a.id) = true ∧
      ((task.counted faults now a = false ∧ (task.progress faults now a).Full now task.taskRunId task.policyDays a) ∨
        (task.counted faults now a = true ∧ (task.progress faults now a).Untouched a))) ∨
      a.harmless (faults.statement a.id) = false ∧ task.counted faults now a = true ∧
        ((task.progress faults now a).Full now task.taskRunId task.policyDays a ∨
          (task.progress faults now a).app ≠ a ∧ (task.progress faults now a).added = []) := by
  cases h : a.harmless (faults.statement a.id) with
  | true =>
    refine .inl ⟨rfl, ?_⟩
    obtain ⟨p, hp, hfull⟩ | ⟨p, hp, hnone⟩ := wipeBody_of_harmless now task.taskRunId task.policyDays h
    · have hprogress : task.progress faults now a = p := congrArg stopped hp
      exact .inl ⟨congrArg raised hp, hprogress ▸ hfull⟩
    · have hprogress : task.progress faults now a = p := congrArg stopped hp
      exact .inr ⟨congrArg raised hp, hprogress ▸ hnone⟩
  | false =>
    refine .inr ⟨rfl, ?_⟩
    obtain ⟨p, hp, hend⟩ := wipeBody_of_harmful now task.taskRunId task.policyDays hw h
    refine ⟨congrArg raised hp, ?_⟩
    have hprogress : task.progress faults now a = p := congrArg stopped hp
    rw [hprogress]
    exact hend.imp_right fun hpart => ⟨hpart.1, hpart.2.1⟩

/-- The loop over the selected rows. -/
theorem wipeBatchAt_eq (k : Nat) (db : RetentionDb) :
    task.wipeBatchAt faults k db =
      (task.selected k db).foldlM (task.wipeOneAt faults (task.clock k)) ⟨db, 0, 0⟩ := by
  unfold wipeBatchAt
  split
  · rename_i h
    rw [List.isEmpty_iff.mp h]
    rfl
  · rfl

/-- The selected rows are different rows of the table that are not wiped. -/
theorem mem_selected (ho : Orders task.order) {k : Nat} {db : RetentionDb} {a : Application}
    (ha : a ∈ task.selected k db) : a ∈ db.applications ∧ a.retentionWiped = false := by
  obtain ⟨hmem, hdue⟩ := List.mem_filter.mp (batch_subset ho ha)
  refine ⟨hmem, ?_⟩
  by_contra hw
  rw [Application.due_of_wiped (Bool.of_not_eq_false hw)] at hdue
  cases hdue

theorem selected_nodup (ho : Orders task.order) (k : Nat) {db : RetentionDb} (hk : db.Keyed) :
    ((task.selected k db).map Application.id).Nodup := by
  have hsub : (task.selected k db).Sublist (task.order k (db.applications.filter (·.due (task.clock k)))) :=
    List.take_sublist _ _
  refine ((hsub.map Application.id).nodup ?_)
  exact ((ho k _).map Application.id).nodup_iff.mpr ((List.filter_sublist.map Application.id).nodup hk)

/-- A sum of ones and zeros. -/
theorem sum_eq_countP {α : Type} {f : α → Nat} {p : α → Bool} {l : List α} (h : ∀ a ∈ l, f a = if p a then 1 else 0) :
    (l.map f).sum = l.countP p := by
  induction l with
  | nil => rfl
  | cons a l ih =>
    rw [List.map_cons, List.sum_cons, List.countP_cons, ih fun b hb => h b (List.mem_cons_of_mem a hb),
      h a List.mem_cons_self, Nat.add_comm]

/-- Fewer items meet the stronger condition when some item meets the weaker one only. -/
theorem countP_lt_countP {α : Type} {p q : α → Bool} {l : List α} (hpq : ∀ b ∈ l, p b = true → q b = true) {a : α}
    (ha : a ∈ l) (hq : q a = true) (hp : p a = false) : l.countP p < l.countP q := by
  obtain ⟨before, after, rfl⟩ := List.append_of_mem ha
  have hbefore : before.countP p ≤ before.countP q := List.countP_mono_left fun b hb =>
    hpq b (List.mem_append_left _ hb)
  have hafter : after.countP p ≤ after.countP q := List.countP_mono_left fun b hb =>
    hpq b (List.mem_append_right _ (List.mem_cons_of_mem a hb))
  rw [List.countP_append, List.countP_append, List.countP_cons_of_pos hq,
    List.countP_cons_of_neg (Bool.eq_false_iff.mp hp)]
  omega

section

variable {k : Nat} {db : RetentionDb} {r : BatchState} {a : Application}
  (hrow : r.db.rowsOf a.id = [(task.progress faults (task.clock k) a).app])
  (hevents : r.db.eventsOf a.id = db.eventsOf a.id ++ (task.progress faults (task.clock k) a).added)

include hrow hevents

/-- Fully wiped, in terms of how far the body got. -/
theorem fullyWiped_iff : task.FullyWiped k db r a ↔
    (task.progress faults (task.clock k) a).app = a.wipe (task.clock k) ∧
      (task.progress faults (task.clock k) a).added =
        [a.retentionEvent (task.clock k) task.taskRunId task.policyDays] := by
  rw [FullyWiped, hrow, hevents, List.append_cancel_left_eq, List.cons.injEq, and_iff_left rfl]

/-- Left alone, in terms of how far the body got. -/
theorem leftAlone_iff : LeftAlone db r a ↔
    (task.progress faults (task.clock k) a).app = a ∧ (task.progress faults (task.clock k) a).added = [] := by
  rw [LeftAlone, hrow, hevents, List.append_right_eq_self, List.cons.injEq, and_iff_left rfl]

/-- An application is of one kind at most. -/
theorem not_leftAlone (hf : task.FullyWiped k db r a) : ¬LeftAlone db r a := by
  intro hl
  have hevent := ((fullyWiped_iff hrow hevents).mp hf).2
  rw [((leftAlone_iff hrow hevents).mp hl).2] at hevent
  cases hevent

/-- An application that is left alone has been counted as an error. -/
theorem counted_of_leftAlone (hw : a.retentionWiped = false) (hl : LeftAlone db r a) :
    task.counted faults (task.clock k) a = true := by
  obtain ⟨-, ⟨-, happ, hadd, -⟩ | ⟨hc, -⟩⟩ | ⟨-, hc, -⟩ := task.progress_cases faults (task.clock k) hw
  · exact absurd hl (not_leftAlone hrow hevents ((fullyWiped_iff hrow hevents).mpr ⟨happ, hadd⟩))
  · exact hc
  · exact hc

/-- Without a harmful fault the kind of an application is the one it is counted as. -/
theorem kind_of_harmless (hw : a.retentionWiped = false) (hg : a.harmless (faults.statement a.id) = true) :
    (task.counted faults (task.clock k) a = false ∧ (task.progress faults (task.clock k) a).wiped = 1 ∧
        task.FullyWiped k db r a ∧ ¬LeftAlone db r a) ∨
      (task.counted faults (task.clock k) a = true ∧ (task.progress faults (task.clock k) a).wiped = 0 ∧
        ¬task.FullyWiped k db r a ∧ LeftAlone db r a) := by
  obtain ⟨-, ⟨hc, happ, hadd, hone⟩ | ⟨hc, happ, hadd, hzero⟩⟩ | ⟨hg', -⟩ :=
    task.progress_cases faults (task.clock k) hw
  · have hf : task.FullyWiped k db r a := (fullyWiped_iff hrow hevents).mpr ⟨happ, hadd⟩
    exact .inl ⟨hc, hone, hf, not_leftAlone hrow hevents hf⟩
  · have hl : LeftAlone db r a := (leftAlone_iff hrow hevents).mpr ⟨happ, hadd⟩
    exact .inr ⟨hc, hzero, fun hf => not_leftAlone hrow hevents hf hl, hl⟩
  · rw [hg] at hg'
    cases hg'

/-- A harmful fault is counted as an error, for a row that is not left alone. -/
theorem kind_of_harmful (hw : a.retentionWiped = false) (hg : a.harmless (faults.statement a.id) = false) :
    task.counted faults (task.clock k) a = true ∧ ¬LeftAlone db r a := by
  obtain ⟨hg', -⟩ | ⟨-, hc, ⟨happ, hadd, -⟩ | ⟨happ, -⟩⟩ := task.progress_cases faults (task.clock k) hw
  · rw [hg] at hg'
    cases hg'
  · exact ⟨hc, not_leftAlone hrow hevents ((fullyWiped_iff hrow hevents).mpr ⟨happ, hadd⟩)⟩
  · exact ⟨hc, fun hl => happ ((leftAlone_iff hrow hevents).mp hl).1⟩

end

/-- **A batch that has committed is atomic for every application, with exact counts, if and only if no application
raises after its row has been changed.** -/
theorem atomicBatch_iff (ho : Orders task.order) {k : Nat} {db : RetentionDb} {r : BatchState} (hk : db.Keyed)
    (h : task.wipeBatchAt faults k db = some r) :
    AtomicBatch task k db r ↔ ∀ a ∈ task.selected k db, a.harmless (faults.statement a.id) = true := by
  rw [wipeBatchAt_eq] at h
  obtain ⟨hwiped, herrors, hdone, -⟩ := foldlM_wipeOneAt h (selected_nodup ho k hk)
    fun a ha => hk.rowsOf_eq (mem_selected ho ha).1
  rw [Nat.zero_add] at hwiped herrors
  constructor
  · intro hatomic a ha
    by_contra hg
    obtain ⟨hc, hnot⟩ := kind_of_harmful (hdone a ha).1 (hdone a ha).2 (mem_selected ho ha).2
      (Bool.eq_false_of_not_eq_true hg)
    have hcounted : ∀ b ∈ task.selected k db, decide (LeftAlone db r b) = true →
        task.counted faults (task.clock k) b = true := fun b hb hl =>
      counted_of_leftAlone (hdone b hb).1 (hdone b hb).2 (mem_selected ho hb).2 (of_decide_eq_true hl)
    -- it is counted without being left alone, so more errors are counted than rows are left alone
    have hlt := countP_lt_countP hcounted ha hc (decide_eq_false hnot)
    have heq := herrors.symm.trans hatomic.errors
    omega
  · intro hall
    have hkind := fun a (ha : a ∈ task.selected k db) =>
      kind_of_harmless (hdone a ha).1 (hdone a ha).2 (mem_selected ho ha).2 (hall a ha)
    refine ⟨fun a ha => ?_, hwiped.trans (sum_eq_countP fun a ha => ?_),
      herrors.trans (List.countP_congr fun a ha => ?_)⟩
    · obtain ⟨-, -, hf, -⟩ | ⟨-, -, -, hl⟩ := hkind a ha
      · exact .inl hf
      · exact .inr hl
    · obtain ⟨-, hone, hf, -⟩ | ⟨-, hzero, hf, -⟩ := hkind a ha
      · rw [hone, if_pos (decide_eq_true hf)]
      · rw [hzero, if_neg (by simpa using hf)]
    · obtain ⟨hc, -, -, hl⟩ | ⟨hc, -, -, hl⟩ := hkind a ha
      · simp [hc, hl]
      · simp [hc, hl]

/-! ## The batch without a fault inside the body -/

/-- The faults of a task whose wipes raise on their first statement or not at all. -/
def firstStatement (task : WipeTask) : WipeFaults where
  statement id := if task.raises id then some (.read .payloadEncrypted) else none
  handler _ := false

theorem putRow_eq_wipeRows (now : DateTime) {db : RetentionDb} {a : Application} (h : db.rowsOf a.id = [a]) :
    putRow (a.wipe now) db.applications = wipeRows now [a.id] db.applications ∧
      putRow a db.applications = db.applications := by
  have hrow : ∀ r ∈ db.applications, r.id = a.id → r = a := by
    intro r hr he
    have hmem : r ∈ db.rowsOf a.id := List.mem_filter.mpr ⟨hr, decide_eq_true he⟩
    rw [h] at hmem
    exact List.mem_singleton.mp hmem
  refine ⟨List.map_congr_left fun r hr => ?_, (List.map_congr_left fun r hr => ?_).trans (List.map_id' _)⟩
  · show (if r.id = a.id then a.wipe now else r) = if [a.id].contains r.id then r.wipe now else r
    by_cases he : r.id = a.id
    · rw [if_pos he, if_pos (by simp [he]), hrow r hr he]
    · rw [if_neg he, if_neg (by simpa using he)]
  · show (if r.id = a.id then a else r) = r
    split
    · exact (hrow r hr ‹_›).symm
    · rfl

/-- One application, in both models of the batch. -/
theorem wipeOneAt_firstStatement {s : BatchState} {a : Application} (h : s.db.rowsOf a.id = [a]) :
    task.wipeOneAt task.firstStatement now s a = some (task.wipeOne now s a) := by
  obtain ⟨hwipe, hsame⟩ := putRow_eq_wipeRows now h
  have hhandler : task.firstStatement.handler a.id = false := rfl
  cases hf : task.raises a.id with
  | true =>
    have hfault : task.firstStatement.statement a.id = some (.read .payloadEncrypted) := if_pos hf
    have hout : task.outcome task.firstStatement now a = .error ⟨a, [], none, [], 0⟩ := by
      unfold outcome
      rw [hfault]
      rfl
    unfold wipeOneAt wipeOne fails
    simp [hout, hf, hsame, hhandler]
  | false =>
    obtain ⟨p, hp, happ, hadd, hone⟩ := wipeBody_none now task.taskRunId task.policyDays a
    have hfault : task.firstStatement.statement a.id = none := if_neg (Bool.eq_false_iff.mp hf)
    have hout : task.outcome task.firstStatement now a = .ok p := by
      unfold outcome
      rw [hfault]
      exact hp
    unfold wipeOneAt wipeOne fails
    simp [hout, hf, happ, hadd, hone, hwipe]

/-- **Without a fault inside the body the batch is the one of the nightly run.** -/
theorem wipeBatchAt_firstStatement (ho : Orders task.order) (k : Nat) {db : RetentionDb} (hk : db.Keyed) :
    task.wipeBatchAt task.firstStatement k db = some (task.wipeBatch k db) := by
  have hloop : ∀ {batch : List Application} {s : BatchState}, (batch.map Application.id).Nodup →
      (∀ a ∈ batch, s.db.rowsOf a.id = [a]) →
        batch.foldlM (task.wipeOneAt task.firstStatement (task.clock k)) s =
          some (batch.foldl (task.wipeOne (task.clock k)) s) := by
    intro batch
    induction batch with
    | nil => exact fun _ _ => rfl
    | cons a batch ih =>
      intro s hn hrows
      rw [List.map_cons, List.nodup_cons] at hn
      have hone : task.wipeOneAt task.firstStatement (task.clock k) s a = some (task.wipeOne (task.clock k) s a) :=
        wipeOneAt_firstStatement (hrows a List.mem_cons_self)
      obtain ⟨-, -, -, -, hothers⟩ := wipeOneAt_eq_some hone
      rw [List.foldlM_cons, hone, List.foldl_cons]
      refine ih hn.2 fun b hb => ?_
      have hne : b.id ≠ a.id := fun he => hn.1 (he ▸ List.mem_map_of_mem hb)
      exact (hothers b.id hne).1.trans (hrows b (List.mem_cons_of_mem a hb))
  rw [wipeBatchAt_eq, hloop (selected_nodup ho k hk) fun a ha => hk.rowsOf_eq (mem_selected ho ha).1, wipeBatch]
  split
  · rename_i h
    rw [List.isEmpty_iff.mp h]
    rfl
  · rfl

end WipeTask

namespace WipeSample

/-- The exception of `db.add` for the first application. -/
def addRaises : WipeFaults where
  statement u := if u.int = 1 then some .add else none
  handler _ := false

end WipeSample

namespace WipeTask

theorem atomicBatch_iff_addRaises :
    ∃ r, (WipeSample.task []).wipeBatchAt WipeSample.addRaises 0 WipeSample.db = some r ∧
      (AtomicBatch (WipeSample.task []) 0 WipeSample.db r ↔
        ∀ a ∈ (WipeSample.task []).selected 0 WipeSample.db,
          a.harmless (WipeSample.addRaises.statement a.id) = true) := by
  have hsome : ((WipeSample.task []).wipeBatchAt WipeSample.addRaises 0 WipeSample.db).isSome = true := by
    decide
  obtain ⟨r, hr⟩ := Option.isSome_iff_exists.mp hsome
  exact ⟨r, hr, atomicBatch_iff (fun _ _ => .refl _) WipeSample.keyed hr⟩

/-- The row of the first application is wiped, and has no event. -/
theorem not_atomicBatch : ¬∀ (task : WipeTask) (faults : WipeFaults) (k : Nat) (db : RetentionDb) (r : BatchState),
    Orders task.order → db.Keyed → task.wipeBatchAt faults k db = some r → AtomicBatch task k db r := by
  intro h
  have hkinds : ((WipeSample.task []).wipeBatchAt WipeSample.addRaises 0 WipeSample.db).map (fun r =>
      decide ((WipeSample.task []).FullyWiped 0 WipeSample.db r (WipeSample.application 1)) ||
        decide (LeftAlone WipeSample.db r (WipeSample.application 1))) = some false := by
    decide
  obtain ⟨r, hr, hneither⟩ := Option.map_eq_some_iff.mp hkinds
  have hmem : WipeSample.application 1 ∈ (WipeSample.task []).selected 0 WipeSample.db := by decide
  have hatomic := h (WipeSample.task []) WipeSample.addRaises 0 WipeSample.db r (fun _ _ => .refl _) WipeSample.keyed hr
  have hkind := hatomic.each _ hmem
  simp only [Bool.or_eq_false_iff, decide_eq_false_iff_not] at hneither
  exact hkind.elim hneither.1 hneither.2

end WipeTask

end ComplianceLoop
