import ComplianceLoop.PyLib.Builtins

/-!
# Applications and retention events (`models/application.py`, `models/retention_event.py`)

The columns that retention reads and writes, and the statements that wipe one application, which the nightly task and
an erasure request share: the personal fields go to NULL, the row is marked, and an event says which fields it was.
-/

set_option autoImplicit false

namespace ComplianceLoop

open PyLib

/-- A row of `applications`; `collateralValue` counts hundredths. -/
structure Application where
  id : Uuid
  applicantId : Uuid
  panHmac : Text
  collateralValue : Option Int
  cityTier : Option Text
  dpdpConsentGiven : Bool
  payloadEncrypted : Option Bytes
  dataRetentionExpiresAt : DateTime
  retentionWiped : Bool
  retentionWipedAt : Option DateTime
  isDemo : Bool
  deriving DecidableEq

/-- A row of `retention_events`. -/
structure RetentionEvent where
  applicationId : Uuid
  wipedAt : DateTime
  wipeTaskRunId : Text
  fieldsWiped : Text
  retentionPolicyDays : Int
  dataRetentionExpiresAtSnapshot : DateTime
  deriving DecidableEq

/-- The tables of applications and of retention events. -/
structure RetentionDb where
  applications : List Application
  events : List RetentionEvent
  deriving DecidableEq

namespace Application

/-- The personal fields that are not NULL yet, in the order in which they are wiped. -/
def piiFields (a : Application) : List Text :=
  (if a.payloadEncrypted.isSome then ["payload_encrypted".toList] else []) ++
    (if a.collateralValue.isSome then ["collateral_value".toList] else []) ++
      (if a.cityTier.isSome then ["city_tier".toList] else [])

/-- The row after the wipe. -/
def wipe (now : DateTime) (a : Application) : Application :=
  { a with
    payloadEncrypted := none
    collateralValue := none
    cityTier := none
    retentionWiped := true
    retentionWipedAt := some now }

/-- The event of the wipe. -/
def retentionEvent (now : DateTime) (taskRunId : Text) (policyDays : Int) (a : Application) : RetentionEvent where
  applicationId := a.id
  wipedAt := now
  wipeTaskRunId := taskRunId
  fieldsWiped := if a.piiFields.isEmpty then "none".toList else List.intercalate [','] a.piiFields
  retentionPolicyDays := policyDays
  dataRetentionExpiresAtSnapshot := a.dataRetentionExpiresAt

@[simp] theorem id_wipe (now : DateTime) (a : Application) : (a.wipe now).id = a.id := rfl

@[simp] theorem retentionWiped_wipe (now : DateTime) (a : Application) : (a.wipe now).retentionWiped = true := rfl

@[simp] theorem wipe_wipe (now : DateTime) (a : Application) : (a.wipe now).wipe now = a.wipe now := rfl

/-- A wiped row holds no personal field. -/
@[simp] theorem piiFields_wipe (now : DateTime) (a : Application) : (a.wipe now).piiFields = [] := rfl

end Application

/-- `UPDATE applications` of the rows with these ids. -/
def wipeRows (now : DateTime) (ids : List Uuid) (rows : List Application) : List Application :=
  rows.map fun r => if ids.contains r.id then r.wipe now else r

@[simp] theorem map_id_wipeRows (now : DateTime) (ids : List Uuid) (rows : List Application) :
    (wipeRows now ids rows).map Application.id = rows.map Application.id := by
  rw [wipeRows, List.map_map]
  refine List.map_congr_left fun r _ => ?_
  show (if ids.contains r.id then r.wipe now else r).id = r.id
  split <;> rfl

@[simp] theorem wipeRows_nil (now : DateTime) (rows : List Application) : wipeRows now [] rows = rows :=
  List.map_id' rows

/-- Wiping one id after another is wiping them all. -/
theorem wipeRows_wipeRows (now : DateTime) (ids ids' : List Uuid) (rows : List Application) :
    wipeRows now ids' (wipeRows now ids rows) = wipeRows now (ids ++ ids') rows := by
  rw [wipeRows, wipeRows, wipeRows, List.map_map]
  refine List.map_congr_left fun r _ => ?_
  show (if ids'.contains (if ids.contains r.id then r.wipe now else r).id then _ else _) = _
  by_cases h : ids.contains r.id = true <;> by_cases h' : ids'.contains r.id = true <;> simp_all

/-- A row of the table after the wipe. -/
theorem mem_wipeRows {now : DateTime} {ids : List Uuid} {rows : List Application} {a : Application} :
    a ∈ wipeRows now ids rows ↔ (a ∈ rows ∧ a.id ∉ ids) ∨ ∃ r ∈ rows, r.id ∈ ids ∧ r.wipe now = a := by
  rw [wipeRows, List.mem_map]
  constructor
  · rintro ⟨r, hr, rfl⟩
    by_cases h : r.id ∈ ids
    · exact .inr ⟨r, hr, h, by rw [List.contains_eq_mem, decide_eq_true h, if_pos rfl]⟩
    · rw [List.contains_eq_mem, decide_eq_false h]
      exact .inl ⟨hr, h⟩
  · rintro (⟨ha, h⟩ | ⟨r, hr, h, rfl⟩)
    · exact ⟨a, ha, by rw [List.contains_eq_mem, decide_eq_false h]; rfl⟩
    · exact ⟨r, hr, by rw [List.contains_eq_mem, decide_eq_true h, if_pos rfl]⟩

/-- The row with this id is wiped. -/
def RetentionDb.Wiped (db : RetentionDb) (id : Uuid) : Prop :=
  ∃ a ∈ db.applications, a.id = id ∧ a.retentionWiped = true

end ComplianceLoop
