import ComplianceLoop.Dpdp.BreachCount
import ComplianceLoop.PyLib.JsonRead

/-!
# The freeze of the queued tasks

`freezeRetroEvalJobs` is `_freeze_retro_eval_jobs`: it reads the first ten thousand messages of the queue, skips the
ones that it cannot read, and revokes the tasks whose application id is the given one, letter by letter. It does not
look at the range. So it revokes exactly the queued tasks of the affected applications when each of these tasks has a
message among those, with its id and with the application id as it is given (`freezesScope_iff`); for a range there must
be no such task.
-/

set_option autoImplicit false

namespace ComplianceLoop

open PyLib

variable {D : Type} [FloatOps D]

/-- Redis and the Celery control: `LLEN` and `LINDEX` of `retro_eval`, the import of the Celery application, and
`control.revoke`. -/
structure RetroEvalBroker (D : Type) where
  llen : Except PyExc Nat
  lindex : Nat → Except PyExc (Option Text)
  control : Except PyExc Unit
  revoke : PyVal D → Except PyExc Unit

/-- The broker answers, and the queue is this one throughout. -/
structure RetroEvalBroker.Serves (broker : RetroEvalBroker D) (queue : List Text) : Prop where
  llen : broker.llen = .ok queue.length
  lindex : ∀ i, broker.lindex i = .ok queue[i]?
  control : broker.control = .ok ()
  revoke : ∀ taskId, broker.revoke taskId = .ok ()

/-- `task_app_id == application_id`. -/
def isText (v : PyVal D) (t : Text) : Bool :=
  match v with
  | .str s => s = pyStr t
  | _ => false

/-- The body of the scan for one answer of `LINDEX`: the task id that it appends, or what it raises. -/
def scanMessage (applicationId : Option Text) (raw : Option Text) : Except PyExc (Option (PyVal D)) :=
  match raw.filter fun t => !t.isEmpty with
  | none => .ok none
  | some raw => do
    let taskData : PyVal D ← PyVal.loads raw
    let taskKwargs ← taskData.get (pyStr "kwargs".toList) (.dict [])
    let taskAppId ← taskKwargs.get (pyStr "application_id".toList) (.str [])
    if applicationId.any fun t => !t.isEmpty && isText taskAppId t then
      let taskId ← taskData.get (pyStr "id".toList) .none
      return if taskId.truthy then some taskId else none
    else return none

/-- `tasks_to_revoke`; a message that cannot be read is skipped. -/
def tasksToRevoke (broker : RetroEvalBroker D) (applicationId : Option Text) (queueLength : Nat) : List (PyVal D) :=
  (List.range (min queueLength 10000)).filterMap fun i =>
    match (broker.lindex i).bind (scanMessage applicationId) with
    | .ok taskId => taskId
    | .error _ => none

/-- The tasks that the loop revokes, up to the first call that raises. -/
def revokeAll (revoke : PyVal D → Except PyExc Unit) : List (PyVal D) → List (PyVal D)
  | [] => []
  | taskId :: taskIds =>
    match revoke taskId with
    | .ok () => taskId :: revokeAll revoke taskIds
    | .error _ => []

/-- `_freeze_retro_eval_jobs`: what it returns, and the tasks that it has revoked. The range is not used. -/
def freezeRetroEvalJobs (broker : RetroEvalBroker D) (args : BreachArgs) : Nat × List (PyVal D) :=
  match broker.llen with
  | .error _ => (0, [])
  | .ok queueLength =>
    match tasksToRevoke broker args.applicationId queueLength, broker.control with
    | _ :: _, .error _ => (0, [])
    | taskIds, _ => ((revokeAll broker.revoke taskIds).length, revokeAll broker.revoke taskIds)

/-! ## What should be frozen -/

/-- The scope names an application by a text that the database reads as its id, or it is a range. -/
def BreachArgs.Valid (args : BreachArgs) : Prop :=
  (∃ t u, args.applicationId = some t ∧ Uuid.parse t = some u) ∨
    args.applicationId = none ∧ args.timeRangeStart.isSome = true ∧ args.timeRangeEnd.isSome = true

/-- The message is a JSON object with this `id`, and with `kwargs` that has this `application_id`. -/
def IsMessage (raw : Text) (taskId : PyVal D) (applicationId : PyStr) : Prop :=
  ∃ items kwargs, PyVal.loads raw = .ok (.dict items) ∧ lookupStr (pyStr "id".toList) items = some taskId ∧
    lookupStr (pyStr "kwargs".toList) items = some (.dict kwargs) ∧
    lookupStr (pyStr "application_id".toList) kwargs = some (.str applicationId)

/-- The task is in the queue, for an affected application. -/
def IsAffectedTask (args : BreachArgs) (rows : List AuditRecord) (queue : List Text) (taskId : PyVal D) : Prop :=
  ∃ raw ∈ queue, ∃ s u, IsMessage raw taskId s ∧ uuidOf s = .ok u ∧ u ∈ args.subject rows

/-- The revoked tasks are exactly those of the affected applications. -/
def FreezesScope (args : BreachArgs) (rows : List AuditRecord) (queue : List Text) (revoked : List (PyVal D)) : Prop :=
  ∀ taskId, taskId ∈ revoked ↔ IsAffectedTask args rows queue taskId

/-- The task has an id, and a message among the first ten thousand whose `application_id` is the given text. -/
def IsReached (args : BreachArgs) (queue : List Text) (taskId : PyVal D) : Prop :=
  taskId.truthy = true ∧
    ∃ t ∈ args.applicationId, ∃ i < 10000, ∃ raw ∈ queue[i]?, IsMessage raw taskId (pyStr t)

/-! ## The scan -/

section

variable {broker : RetroEvalBroker D} {args : BreachArgs} {rows : List AuditRecord} {queue : List Text}
  {taskId : PyVal D}

omit [FloatOps D] in
theorem isText_iff {v : PyVal D} {t : Text} : isText v t = true ↔ v = .str (pyStr t) := by
  unfold isText
  cases v <;> simp

omit [FloatOps D] in
/-- What `dict.get` returns on an object. -/
theorem get_eq_ok {v default w : PyVal D} {k : PyStr} :
    v.get k default = .ok w ↔ ∃ items, v = .dict items ∧ (lookupStr k items).getD default = w := by
  unfold PyVal.get
  cases v <;> simp [raise]

omit [FloatOps D] in
/-- A value that is found, or a default that is another one. -/
theorem lookupStr_of_getD {items : List (PyKey D × PyVal D)} {k : PyStr} {default w : PyVal D}
    (h : (lookupStr k items).getD default = w) (hne : default ≠ w) : lookupStr k items = some w := by
  cases hl : lookupStr k items with
  | none =>
    rw [hl] at h
    exact absurd h hne
  | some v =>
    rw [hl] at h
    exact congrArg some h

theorem loads_nil : PyVal.loads [] = (raise .jsonDecodeError "Expecting value".toList : Except PyExc (PyVal D)) := rfl

/-- A message that is found is not empty. -/
theorem filter_of_isMessage {raw : Option Text} {m : Text} {s : PyStr} (hraw : raw = some m)
    (hm : IsMessage m taskId s) : (raw.filter fun t => !t.isEmpty) = some m := by
  have hne : m ≠ [] := by
    rintro rfl
    obtain ⟨items, kwargs, hload, -⟩ := hm
    rw [loads_nil] at hload
    exact raise_ne_ok _ _ _ hload
  rw [hraw, Option.filter_some, if_pos (by simpa using hne)]

/-- A task that the scan appends. -/
theorem isMessage_of_scanMessage {applicationId : Option Text} {raw : Option Text}
    (h : scanMessage applicationId raw = .ok (some taskId)) :
    taskId.truthy = true ∧ ∃ t ∈ applicationId, t ≠ [] ∧ ∃ m ∈ raw, IsMessage m taskId (pyStr t) := by
  unfold scanMessage at h
  split at h
  · cases h
  rename_i m hfilter
  have hraw : raw = some m := (Option.filter_eq_some_iff.mp hfilter).1
  obtain ⟨taskData, hload, h⟩ := bind_eq_ok.mp h
  obtain ⟨taskKwargs, hkwargs, h⟩ := bind_eq_ok.mp h
  obtain ⟨taskAppId, happ, h⟩ := bind_eq_ok.mp h
  split at h
  · rename_i hany
    obtain ⟨t, ht, hany⟩ := (Option.any_eq_true _ _).mp hany
    obtain ⟨hne, htext⟩ := Bool.and_eq_true_iff.mp hany
    have hne : t ≠ [] := by simpa using hne
    obtain ⟨found, hfound, h⟩ := bind_eq_ok.mp h
    have hsome := Except.ok.inj h
    split at hsome
    · rename_i htruthy
      obtain rfl := Option.some.inj hsome
      obtain ⟨items, rfl, hid⟩ := get_eq_ok.mp hfound
      obtain ⟨items', he, hk⟩ := get_eq_ok.mp hkwargs
      obtain rfl := (PyVal.dict.inj he)
      obtain ⟨kwargs, rfl, ha⟩ := get_eq_ok.mp happ
      rw [isText_iff.mp htext] at ha
      -- the defaults are told apart from what is found
      have hid := lookupStr_of_getD hid (by rintro rfl; cases htruthy)
      have ha := lookupStr_of_getD ha (by simpa [pyStr] using Ne.symm hne)
      have hk := lookupStr_of_getD hk (by rintro hd; obtain rfl := PyVal.dict.inj hd; cases ha)
      exact ⟨htruthy, t, ht, hne, m, hraw, items, kwargs, hload, hid, hk, ha⟩
    · cases hsome
  · cases h

/-- A message with the given text as `application_id` is appended. -/
theorem scanMessage_of_isMessage {applicationId : Option Text} {raw : Option Text} {t m : Text}
    (htruthy : taskId.truthy = true) (ht : t ∈ applicationId) (hne : t ≠ []) (hm : m ∈ raw)
    (hmessage : IsMessage m taskId (pyStr t)) : scanMessage applicationId raw = .ok (some taskId) := by
  have hfilter := filter_of_isMessage hm hmessage
  obtain ⟨items, kwargs, hload, hid, hk, ha⟩ := hmessage
  have hany : (applicationId.any fun t' => !t'.isEmpty && isText (.str (pyStr t) : PyVal D) t') = true := by
    rw [Option.mem_def.mp ht]
    simp [isText, hne]
  unfold scanMessage
  rw [hfilter]
  refine bind_eq_ok.mpr ⟨_, hload, bind_eq_ok.mpr ⟨.dict kwargs, ?_, bind_eq_ok.mpr ⟨.str (pyStr t), ?_, ?_⟩⟩⟩
  · exact get_eq_ok.mpr ⟨items, rfl, by rw [hk]; rfl⟩
  · exact get_eq_ok.mpr ⟨kwargs, rfl, by rw [ha]; rfl⟩
  · rw [if_pos hany]
    refine bind_eq_ok.mpr ⟨taskId, get_eq_ok.mpr ⟨items, rfl, by rw [hid]; rfl⟩, ?_⟩
    rw [if_pos htruthy]
    rfl

/-- **The tasks that the scan finds**: those with an id whose message has the given text as `application_id`. -/
theorem scanMessage_eq_some {applicationId : Option Text} {raw : Option Text} :
    scanMessage applicationId raw = .ok (some taskId) ↔
      taskId.truthy = true ∧ ∃ t ∈ applicationId, t ≠ [] ∧ ∃ m ∈ raw, IsMessage m taskId (pyStr t) := by
  constructor
  · exact isMessage_of_scanMessage
  · rintro ⟨htruthy, t, ht, hne, m, hm, hmessage⟩
    exact scanMessage_of_isMessage htruthy ht hne hm hmessage

/-- What the scan of the queue finds. -/
theorem mem_tasksToRevoke (h : broker.Serves queue) {applicationId : Option Text} :
    taskId ∈ tasksToRevoke broker applicationId queue.length ↔
      ∃ i < 10000, i < queue.length ∧ scanMessage applicationId queue[i]? = .ok (some taskId) := by
  rw [tasksToRevoke, List.mem_filterMap]
  simp only [List.mem_range, Nat.lt_min, h.lindex, ok_bind]
  constructor
  · rintro ⟨i, ⟨hlen, hcap⟩, hi⟩
    refine ⟨i, hcap, hlen, ?_⟩
    split at hi
    · rename_i found hfound
      rw [hfound, hi]
    · cases hi
  · rintro ⟨i, hcap, hlen, hi⟩
    exact ⟨i, ⟨hlen, hcap⟩, by rw [hi]⟩

omit [FloatOps D] in
theorem revokeAll_eq_self (h : broker.Serves queue) (taskIds : List (PyVal D)) :
    revokeAll broker.revoke taskIds = taskIds := by
  induction taskIds with
  | nil => rfl
  | cons taskId taskIds ih => rw [revokeAll, h.revoke taskId, ih]

/-- A broker that answers revokes what the scan finds. -/
theorem freezeRetroEvalJobs_eq (h : broker.Serves queue) (args : BreachArgs) :
    freezeRetroEvalJobs broker args =
      ((tasksToRevoke broker args.applicationId queue.length).length,
        tasksToRevoke broker args.applicationId queue.length) := by
  simp only [freezeRetroEvalJobs, h.llen, h.control, revokeAll_eq_self h]
  cases tasksToRevoke broker args.applicationId queue.length <;> rfl

/-- A task is revoked when it is reached. -/
theorem mem_revoked_iff (h : broker.Serves queue) (hv : args.Valid) :
    taskId ∈ (freezeRetroEvalJobs broker args).2 ↔ IsReached args queue taskId := by
  rw [freezeRetroEvalJobs_eq h, mem_tasksToRevoke h]
  constructor
  · rintro ⟨i, hcap, -, hi⟩
    obtain ⟨htruthy, t, ht, -, m, hm, hmessage⟩ := scanMessage_eq_some.mp hi
    exact ⟨htruthy, t, ht, i, hcap, m, hm, hmessage⟩
  · rintro ⟨htruthy, t, ht, i, hcap, m, hm, hmessage⟩
    obtain ⟨hlen, -⟩ := List.getElem?_eq_some_iff.mp (Option.mem_def.mp hm)
    refine ⟨i, hcap, hlen, scanMessage_eq_some.mpr ⟨htruthy, t, ht, ?_, m, hm, hmessage⟩⟩
    rintro rfl
    obtain ⟨t, u, ht', hu⟩ | ⟨hnone, -, -⟩ := hv
    · cases ht'.symm.trans ht
      cases hu
    · cases hnone.symm.trans ht

/-- A task that is reached is one of an affected application. -/
theorem isAffectedTask_of_isReached (hv : args.Valid) (h : IsReached args queue taskId) :
    IsAffectedTask args rows queue taskId := by
  obtain ⟨-, t, ht, i, -, m, hm, hmessage⟩ := h
  obtain ⟨t', u, ht', hu⟩ | ⟨hnone, -, -⟩ := hv
  · obtain rfl : t' = t := Option.some.inj (ht'.symm.trans ht)
    refine ⟨m, List.mem_of_getElem? (Option.mem_def.mp hm), pyStr t', u, hmessage, uuidOf_eq_ok.mpr ⟨t', rfl, hu⟩, ?_⟩
    rw [BreachArgs.subject_of_some ht' hu]
    exact Finset.mem_singleton_self u
  · cases hnone.symm.trans ht

/-- **The freeze revokes exactly the queued tasks of the affected applications if and only if each of them has an id,
and a message among the first ten thousand whose `application_id` is the given text.** -/
theorem freezesScope_iff (h : broker.Serves queue) (hv : args.Valid) :
    FreezesScope args rows queue (freezeRetroEvalJobs broker args).2 ↔
      ∀ taskId : PyVal D, IsAffectedTask args rows queue taskId → IsReached args queue taskId := by
  constructor
  · exact fun hf taskId ha => (mem_revoked_iff h hv).mp ((hf taskId).mpr ha)
  · exact fun hr taskId =>
      (mem_revoked_iff h hv).trans ⟨isAffectedTask_of_isReached hv, hr taskId⟩

/-- The report has the number of the revoked tasks. -/
theorem retroEvalJobsFrozen_eq {run : BreachRun} {db db' : BreachDb} {report : BreachReport} (hs : broker.Serves queue)
    (hf : run.freeze = .ok (freezeRetroEvalJobs broker args).1) (h : breachResponse run args db = (.ok report, db')) :
    report.retroEvalJobsFrozen = (freezeRetroEvalJobs broker args).2.length := by
  obtain ⟨row, db₁, frozen, ids, -, hfrozen, -, -, rfl⟩ := breachResponse_steps h
  have he : (freezeRetroEvalJobs broker args).1 = frozen := Except.ok.inj (hf.symm.trans hfrozen)
  rw [freezeRetroEvalJobs_eq hs] at he ⊢
  exact he.symm

end

namespace BreachSample

/-- A queued task of an application. -/
def document (taskId applicationId : Text) : Json WholeFloat :=
  .obj [(pyStr "id".toList, .str (pyStr taskId)),
    (pyStr "kwargs".toList, .obj [(pyStr "application_id".toList, .str (pyStr applicationId))])]

def message (taskId applicationId : Text) : Text := (document taskId applicationId).print

theorem isMessage_message (taskId applicationId : Text) :
    IsMessage (D := WholeFloat) (message taskId applicationId) (.str (pyStr taskId)) (pyStr applicationId) := by
  have hload : PyVal.loads (D := WholeFloat) (message taskId applicationId) = .ok (.dict
      [(.str (pyStr "id".toList), .str (pyStr taskId)),
        (.str (pyStr "kwargs".toList),
          .dict [(.str (pyStr "application_id".toList), .str (pyStr applicationId))])]) := by
    have hfits : (document taskId applicationId).Fits := ⟨trivial, ⟨trivial, trivial⟩, trivial⟩
    rw [PyVal.loads, message, Json.parse_print _ hfits]
    simp only [document, Json.joined, Json.joinedMembers, joinPairs_pyStr]
    rfl
  exact ⟨_, _, hload, rfl, rfl, rfl⟩

/-- A broker that answers. -/
def broker (queue : List Text) : RetroEvalBroker WholeFloat :=
  ⟨.ok queue.length, fun i => .ok queue[i]?, .ok (), fun _ => .ok ()⟩

theorem serves_broker (queue : List Text) : (broker queue).Serves queue := ⟨rfl, fun _ => rfl, rfl, fun _ => rfl⟩

/-- A task of the first application. -/
def queue : List Text := [message "task".toList (Sample.uuid 1).str]

/-- Both days. -/
def days : BreachArgs := ⟨none, some (WipeSample.midnight 0), some (WipeSample.midnight 1), "HIGH".toList⟩

end BreachSample

/-- The response to the application of the first sample record. -/
theorem freezesScope_iff_sample :
    FreezesScope BreachSample.args BreachSample.db.database.auditRecords BreachSample.queue
        (freezeRetroEvalJobs (BreachSample.broker BreachSample.queue) BreachSample.args).2 ↔
      ∀ taskId : PyVal WholeFloat,
        IsAffectedTask BreachSample.args BreachSample.db.database.auditRecords BreachSample.queue taskId →
          IsReached BreachSample.args BreachSample.queue taskId :=
  freezesScope_iff (BreachSample.serves_broker _) (.inl ⟨_, _, rfl, Uuid.parse_str (Sample.uuid 1)⟩)

/-- Nothing is revoked for the range in which the application of the task has a record. -/
theorem not_freezesScope :
    ¬ ∀ (broker : RetroEvalBroker WholeFloat) (args : BreachArgs) (rows : List AuditRecord) (queue : List Text),
      broker.Serves queue → args.Valid → FreezesScope args rows queue (freezeRetroEvalJobs broker args).2 := by
  intro h
  have hserves := BreachSample.serves_broker BreachSample.queue
  have hvalid : BreachSample.days.Valid := .inr ⟨rfl, rfl, rfl⟩
  have haffected : Sample.uuid 1 ∈ BreachSample.days.subject BreachSample.db.database.auditRecords := by decide
  have htask : IsAffectedTask BreachSample.days BreachSample.db.database.auditRecords BreachSample.queue
      (.str (pyStr "task".toList) : PyVal WholeFloat) :=
    ⟨_, List.mem_singleton_self _, _, _, BreachSample.isMessage_message "task".toList (Sample.uuid 1).str,
      uuidOf_str (Sample.uuid 1), haffected⟩
  have hrevoked := (h _ _ _ _ hserves hvalid _).mpr htask
  obtain ⟨-, t, ht, -⟩ := (mem_revoked_iff hserves hvalid).mp hrevoked
  cases ht

end ComplianceLoop
