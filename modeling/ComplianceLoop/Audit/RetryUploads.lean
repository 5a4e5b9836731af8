import ComplianceLoop.Audit.RoundTrip
import ComplianceLoop.Dpdp.Application

/-!
# `audit/s3_uploader.py`: the retry of pending uploads

`retryPendingUploads` takes up to 100 of the pending audit records, in the order in which the SELECT gives them, and
uploads the payload of each from its decision row, provided that the application still has its encrypted payload. With
the object store and the database working, a record of the batch is marked exactly when it is `Retryable` and the
encryption key loads (`uploaded_retryLoop`), so a run makes progress exactly when the batch holds such a record
(`retry_progress_iff`).
-/

set_option autoImplicit false

namespace ComplianceLoop

open PyLib

variable {D : Type}

/-- A JSONB column as the driver has read it. -/
structure JsonColumn (D : Type) where
  doc : Json D
  fits : doc.Fits

/-- The columns of `decisions` that the retry reads, and the demo flag. -/
structure DecisionRow (D : Type) where
  id : Uuid
  outcome : DecisionOutcome
  agentOutputs : JsonColumn D
  confidence : PyFloat D
  rationaleChain : JsonColumn D
  isDemo : Bool

/-- The tables that the retry reads besides the audit records. -/
structure RetryTables (D : Type) where
  decisions : List (DecisionRow D)
  applications : List Application

/-- The primary keys. -/
structure RetryTables.Keyed (tables : RetryTables D) : Prop where
  decisions : (tables.decisions.map DecisionRow.id).Nodup
  applications : (tables.applications.map Application.id).Nodup

/-- The arguments of the upload of a pending record. -/
def retryArgs (decision : DecisionRow D) (r : AuditRecord) : UploadArgs D where
  decisionId := pyStr r.decisionId.str
  applicationId := pyStr r.applicationId.str
  guidelineVersionId := pyStr r.guidelineVersionId.str
  writtenAt := r.writtenAt
  agentOutputs := .ofJson decision.agentOutputs.doc
  outcome := .str (pyStr decision.outcome.value)
  confidence := decision.confidence
  rationaleChain := .ofJson decision.rationaleChain.doc
  s3Key := computePayloadS3Key (pyStr r.decisionId.str) r.writtenAt

/-- The rows of the decision and of the application of a record. -/
def retryLookup (tables : RetryTables D) (r : AuditRecord) : Except PyExc (Option (DecisionRow D × Application)) :=
  (scalarOneOrNone (tables.decisions.filter (·.id = r.decisionId))).bind fun
    | none => .ok none
    | some decision =>
      (scalarOneOrNone (tables.applications.filter (·.id = r.applicationId))).map fun
        | none => none
        | some application => if application.payloadEncrypted = none then none else some (decision, application)

/-- The `WHERE` clause of the retry. -/
def pendingRecords (dbs : Databases) : List AuditRecord :=
  dbs.getSessionContext.auditRecords.filter fun r => !r.payloadS3Uploaded && !r.isDemo

/-- The rows that the SELECT returns. -/
def retryBatch (order : List AuditRecord → List AuditRecord) (dbs : Databases) : List AuditRecord :=
  (order (pendingRecords dbs)).take 100

/-- The counts of a run so far, and the world. -/
structure RetryState where
  attempted : Nat
  succeeded : Nat
  failed : Nat
  world : World

section

variable [FloatOps D] (C : Crypto) (keys : Keys)

/-- The body of the loop of `_retry_pending_uploads_async`, without the counting. -/
def retryRecord (tables : RetryTables D) (nonce : Nonce) (faults : UploadFaults) (w : World) (r : AuditRecord) :
    Bool × World :=
  match retryLookup tables r with
  | .ok (some (decision, _)) => uploadAuditPayload C keys nonce faults (retryArgs decision r) w
  | _ => (false, w)

/-- The body of the loop. -/
def retryOne (tables : RetryTables D) (nonces : Nat → Nonce) (faults : Nat → UploadFaults) (s : RetryState)
    (r : AuditRecord) : RetryState :=
  let done := retryRecord C keys tables (nonces s.attempted) (faults s.attempted) s.world r
  { attempted := s.attempted + 1
    succeeded := if done.1 then s.succeeded + 1 else s.succeeded
    failed := if done.1 then s.failed else s.failed + 1
    world := done.2 }

/-- `_retry_pending_uploads_async`: the counts that it returns, and the world afterwards. -/
def retryPendingUploads (tables : RetryTables D) (order : List AuditRecord → List AuditRecord) (nonces : Nat → Nonce)
    (faults : Nat → UploadFaults) (w : World) : RetryState :=
  (retryBatch order w.dbs).foldl (retryOne C keys tables nonces faults) ⟨0, 0, 0, w⟩

end

/-! ## Lookups -/

/-- The record has its decision row. -/
def HasDecision (tables : RetryTables D) (r : AuditRecord) : Prop := ∃ d ∈ tables.decisions, d.id = r.decisionId

/-- The record has its decision row, and its application row with the encrypted payload. -/
def Retryable (tables : RetryTables D) (r : AuditRecord) : Prop :=
  HasDecision tables r ∧ ∃ a ∈ tables.applications, a.id = r.applicationId ∧ a.payloadEncrypted ≠ none

theorem filter_key_eq_nil {α β : Type} [DecidableEq β] {f : α → β} {xs : List α} {b : β} (h : ∀ a ∈ xs, f a ≠ b) :
    xs.filter (f · = b) = [] :=
  List.filter_eq_nil_iff.mpr fun a ha hf => h a ha (of_decide_eq_true hf)

theorem retryLookup_of_retryable {tables : RetryTables D} (hk : tables.Keyed) {r : AuditRecord}
    (h : Retryable tables r) : ∃ d a, retryLookup tables r = .ok (some (d, a)) := by
  obtain ⟨⟨d, hd, hid⟩, a, ha, haid, hp⟩ := h
  refine ⟨d, a, ?_⟩
  rw [retryLookup, ← hid, filter_of_nodup_key hk.decisions hd]
  show Except.map _ (scalarOneOrNone (tables.applications.filter (·.id = r.applicationId))) = _
  rw [← haid, filter_of_nodup_key hk.applications ha]
  show Except.ok (if a.payloadEncrypted = none then none else some (d, a)) = _
  rw [if_neg hp]

theorem retryLookup_of_not_retryable {tables : RetryTables D} (hk : tables.Keyed) {r : AuditRecord}
    (h : ¬ Retryable tables r) : retryLookup tables r = .ok none := by
  by_cases hd : HasDecision tables r
  · obtain ⟨d, hd', hid⟩ := id hd
    rw [retryLookup, ← hid, filter_of_nodup_key hk.decisions hd']
    show Except.map _ (scalarOneOrNone (tables.applications.filter (·.id = r.applicationId))) = _
    by_cases ha : ∃ a ∈ tables.applications, a.id = r.applicationId
    · obtain ⟨a, ha, haid⟩ := ha
      have hp : a.payloadEncrypted = none := by
        by_contra hp
        exact h ⟨hd, a, ha, haid, hp⟩
      rw [← haid, filter_of_nodup_key hk.applications ha]
      show Except.ok (if a.payloadEncrypted = none then none else some (d, a)) = _
      rw [if_pos hp]
    · rw [filter_key_eq_nil fun a ha' he => ha ⟨a, ha', he⟩]
      rfl
  · rw [retryLookup, filter_key_eq_nil fun d hd' he => hd ⟨d, hd', he⟩]
    rfl

/-! ## The marks of one upload -/

/-- The production record of the decision is marked as uploaded. -/
def Databases.Uploaded (dbs : Databases) (u : Uuid) : Prop :=
  ∃ x ∈ dbs.production.auditRecords, x.decisionId = u ∧ x.payloadS3Uploaded = true

/-- The decision has a production record. -/
def Databases.Recorded (dbs : Databases) (u : Uuid) : Prop := u ∈ dbs.production.auditRecords.map AuditRecord.decisionId

theorem map_decisionId_markRow (u : Uuid) (k : PyStr) (rows : List AuditRecord) :
    (markRow u k rows).map AuditRecord.decisionId = rows.map AuditRecord.decisionId :=
  map_markRow (fun _ _ => rfl) u k rows

theorem Database.Keyed.marked {dbs : Databases} (h : dbs.production.Keyed) (u : Uuid) (k : PyStr) :
    (dbs.marked u k).production.Keyed where
  auditRecords := by
    show ((markRow u k dbs.production.auditRecords).map AuditRecord.decisionId).Nodup
    rw [map_decisionId_markRow]
    exact h.auditRecords
  decisions := h.decisions

theorem Databases.recorded_marked {dbs : Databases} {u v : Uuid} {k : PyStr} :
    (dbs.marked u k).Recorded v ↔ dbs.Recorded v := by
  show v ∈ (markRow u k dbs.production.auditRecords).map AuditRecord.decisionId ↔ _
  rw [map_decisionId_markRow]
  rfl

theorem Databases.uploaded_marked {dbs : Databases} {u v : Uuid} {k : PyStr} (hu : dbs.Recorded u) :
    (dbs.marked u k).Uploaded v ↔ dbs.Uploaded v ∨ v = u := by
  constructor
  · rintro ⟨x, hx, rfl, hup⟩
    obtain ⟨r, hr, rfl⟩ := List.mem_map.mp hx
    by_cases h : r.decisionId = u
    · rw [if_pos h]
      exact .inr h
    · rw [if_neg h] at hup ⊢
      exact .inl ⟨r, hr, rfl, hup⟩
  · have hmark : ∀ r ∈ dbs.production.auditRecords, r.decisionId = u ∨ r.payloadS3Uploaded = true →
        (dbs.marked u k).Uploaded r.decisionId := by
      intro r hr h
      refine ⟨_, List.mem_map_of_mem hr, ?_⟩
      split
      · exact ⟨rfl, rfl⟩
      · rename_i hne
        exact ⟨rfl, h.resolve_left hne⟩
    rintro (⟨r, hr, rfl, hup⟩ | rfl)
    · exact hmark r hr (.inr hup)
    · obtain ⟨r, hr, rfl⟩ := List.mem_map.mp hu
      exact hmark r hr (.inl rfl)

/-- The update marks the record, as far as its request gets. -/
theorem markUploaded_of_recorded (attempt : Attempt) {dbs : Databases} (hdb : dbs.production.Keyed) {d k : PyStr}
    {u : Uuid} (hd : uuidOf d = .ok u) (hu : dbs.Recorded u) :
    markUploaded attempt d k dbs = attempt.run .databaseError dbs (dbs.marked u k) := by
  obtain ⟨r, hr, rfl⟩ := List.mem_map.mp hu
  have hquery : scalarOneOrNone (dbs.getSessionContext.auditRecordsOf r.decisionId) = .ok (some r) := by
    show scalarOneOrNone (dbs.production.auditRecordsOf r.decisionId) = _
    rw [hdb.auditRecordsOf_eq hr]
    rfl
  rw [markUploaded, hd, ok_bind, hquery]
  rfl

section

variable [FloatOps D] {C : Crypto} {keys : Keys}

/-- The payload of a retry can always be written, and encrypted when payloads can be. -/
theorem returned_encryptedPayload_retryArgs (nonce : Nonce) (d : DecisionRow D) (r : AuditRecord) :
    returned (encryptedPayload C keys nonce (retryArgs d r)) = true ↔ canEncrypt C keys = true := by
  have hjson : ∀ c : JsonColumn D, returned (PyVal.dumps (.ofJson c.doc)) = true := by
    intro c
    rw [PyVal.dumps, PyVal.encode_ofJson c.fits]
    rfl
  rw [returned_encryptedPayload, UploadArgs.returned_payload]
  exact and_iff_right ⟨hjson d.agentOutputs, rfl, hjson d.rationaleChain⟩

theorem encryptedPayload_retryArgs_error (ha : ¬ canEncrypt C keys = true) (nonce : Nonce) (d : DecisionRow D)
    (r : AuditRecord) : ∃ e, encryptedPayload C keys nonce (retryArgs d r) = .error e := by
  have hno := mt (returned_encryptedPayload_retryArgs (C := C) nonce d r).mp ha
  cases he : encryptedPayload C keys nonce (retryArgs d r) with
  | ok b =>
    rw [he] at hno
    exact absurd rfl hno
  | error e => exact ⟨e, rfl⟩

/-- The upload of a pending record, however far its requests get. -/
theorem uploadAuditPayload_retryArgs (C : Crypto) (keys : Keys) {w : World} (hdb : w.dbs.production.Keyed)
    {r : AuditRecord} (hr : w.dbs.Recorded r.decisionId) (nonce : Nonce) (faults : UploadFaults) (d : DecisionRow D) :
    let marked := w.dbs.marked r.decisionId (computePayloadS3Key (pyStr r.decisionId.str) r.writtenAt)
    (uploadAuditPayload C keys nonce faults (retryArgs d r) w).1 =
        (canEncrypt C keys && faults.put = .done && faults.mark = .done) ∧
      (uploadAuditPayload C keys nonce faults (retryArgs d r) w).2.dbs =
        if canEncrypt C keys = true ∧ faults.put = .done ∧ faults.mark ≠ .refused then marked else w.dbs := by
  intro marked
  have hu : uuidOf (retryArgs d r).decisionId = .ok r.decisionId := by
    simp only [retryArgs]
    exact uuidOf_str r.decisionId
  have hmark : ∀ attempt, markUploaded attempt (retryArgs d r).decisionId (retryArgs d r).s3Key w.dbs =
      attempt.run .databaseError w.dbs marked := fun attempt => markUploaded_of_recorded attempt hdb hu hr
  unfold uploadAuditPayload
  by_cases ha : canEncrypt C keys = true
  · obtain ⟨b, he⟩ := returned_iff.mp ((returned_encryptedPayload_retryArgs (C := C) nonce d r).mpr ha)
    simp only [he, ha, hmark, uploadToMinio]
    cases faults.put <;> cases faults.mark <;> simp [Attempt.run, raise]
  · obtain ⟨e, he⟩ := encryptedPayload_retryArgs_error (C := C) ha nonce d r
    simp [he, ha]

/-- **A record of the batch is marked exactly when payloads can be encrypted and it is retryable.** -/
theorem retryRecord_done (C : Crypto) (keys : Keys) {tables : RetryTables D} (hk : tables.Keyed) (nonce : Nonce)
    {w : World} (hdb : w.dbs.production.Keyed) {r : AuditRecord} (hr : w.dbs.Recorded r.decisionId) :
    ((canEncrypt C keys = true ∧ Retryable tables r) ∧
        (retryRecord C keys tables nonce ⟨.done, .done⟩ w r).1 = true ∧
        (retryRecord C keys tables nonce ⟨.done, .done⟩ w r).2.dbs =
          w.dbs.marked r.decisionId (computePayloadS3Key (pyStr r.decisionId.str) r.writtenAt)) ∨
      ¬ (canEncrypt C keys = true ∧ Retryable tables r) ∧
        retryRecord C keys tables nonce ⟨.done, .done⟩ w r = (false, w) := by
  by_cases h : Retryable tables r
  · obtain ⟨d, a, hl⟩ := retryLookup_of_retryable hk h
    rw [retryRecord, hl]
    dsimp only
    by_cases ha : canEncrypt C keys = true
    · obtain ⟨hdone, hdbs⟩ := uploadAuditPayload_retryArgs C keys hdb hr nonce ⟨.done, .done⟩ d
      refine .inl ⟨⟨ha, h⟩, ?_, ?_⟩
      · simpa [ha] using hdone
      · simpa [ha] using hdbs
    · obtain ⟨e, he⟩ := encryptedPayload_retryArgs_error (C := C) ha nonce d r
      refine .inr ⟨fun h => ha h.1, ?_⟩
      rw [uploadAuditPayload, he]
  · exact .inr ⟨fun hr => h hr.2, by rw [retryRecord, retryLookup_of_not_retryable hk h]⟩

/-! ## The run -/

/-- A record of the batch leaves the other columns of every production record alone. -/
theorem map_retryRecord {β : Type} {g : AuditRecord → β}
    (hg : ∀ r k, g { r with payloadS3Uploaded := true, payloadS3Key := some k } = g r) (tables : RetryTables D)
    (nonce : Nonce) (faults : UploadFaults) (w : World) (r : AuditRecord) :
    (retryRecord C keys tables nonce faults w r).2.dbs.production.auditRecords.map g =
      w.dbs.production.auditRecords.map g := by
  unfold retryRecord
  split
  · rename_i d _ _
    rcases uploadAuditPayload_dbs C keys nonce faults (retryArgs d r) w with h | ⟨u, h⟩
    · rw [h]
    · rw [h]
      exact map_markRow hg u _ _
  · rfl

/-- And so does a run. -/
theorem map_retryLoop {β : Type} {g : AuditRecord → β}
    (hg : ∀ r k, g { r with payloadS3Uploaded := true, payloadS3Key := some k } = g r) (tables : RetryTables D)
    (nonces : Nat → Nonce) (faults : Nat → UploadFaults) (batch : List AuditRecord) (s : RetryState) :
    (batch.foldl (retryOne C keys tables nonces faults) s).world.dbs.production.auditRecords.map g =
      s.world.dbs.production.auditRecords.map g := by
  induction batch generalizing s with
  | nil => rfl
  | cons r batch ih =>
    rw [List.foldl_cons, ih]
    exact map_retryRecord hg tables (nonces s.attempted) (faults s.attempted) s.world r

/-- The object store and the database work. -/
def noFaults : Nat → UploadFaults := fun _ => ⟨.done, .done⟩

/-- What a part of the loop marks. -/
theorem uploaded_retryLoop (C : Crypto) (keys : Keys) {tables : RetryTables D} (hk : tables.Keyed)
    (nonces : Nat → Nonce) (batch : List AuditRecord) {s : RetryState} (hdb : s.world.dbs.production.Keyed)
    (hr : ∀ r ∈ batch, s.world.dbs.Recorded r.decisionId) (u : Uuid) :
    (batch.foldl (retryOne C keys tables nonces noFaults) s).world.dbs.Uploaded u ↔
      s.world.dbs.Uploaded u ∨ ∃ r ∈ batch, (canEncrypt C keys = true ∧ Retryable tables r) ∧ r.decisionId = u := by
  induction batch generalizing s with
  | nil => simp
  | cons r batch ih =>
    rw [List.forall_mem_cons] at hr
    obtain ⟨hr, hrest⟩ := hr
    rw [List.foldl_cons, List.exists_mem_cons_iff, ← or_assoc]
    have hone := retryRecord_done C keys hk (nonces s.attempted) hdb hr
    rcases hone with ⟨h, -, hw⟩ | ⟨h, hw⟩
    · have hworld : (retryOne C keys tables nonces noFaults s r).world.dbs =
          s.world.dbs.marked r.decisionId (computePayloadS3Key (pyStr r.decisionId.str) r.writtenAt) := hw
      have hkeyed : (retryOne C keys tables nonces noFaults s r).world.dbs.production.Keyed := by
        rw [hworld]
        exact hdb.marked _ _
      have hrecorded : ∀ x ∈ batch, (retryOne C keys tables nonces noFaults s r).world.dbs.Recorded x.decisionId := by
        intro x hx
        rw [hworld, Databases.recorded_marked]
        exact hrest x hx
      rw [ih hkeyed hrecorded, hworld, Databases.uploaded_marked hr]
      simp only [h, true_and, eq_comm]
    · have hworld : (retryOne C keys tables nonces noFaults s r).world = s.world := congrArg Prod.snd hw
      rw [ih (hworld ▸ hdb) (hworld ▸ hrest), hworld]
      simp only [h, false_and, or_false]

/-- The rows that the SELECT returns are pending. -/
theorem retryBatch_subset {order : List AuditRecord → List AuditRecord} (ho : ∀ rows, (order rows).Perm rows)
    (dbs : Databases) : retryBatch order dbs ⊆ pendingRecords dbs := fun _ h =>
  (ho (pendingRecords dbs)).mem_iff.mp (List.mem_of_mem_take h)

/-- The record of a pending row is not marked yet. -/
theorem Database.Keyed.not_uploaded {dbs : Databases} (h : dbs.production.Keyed) {r : AuditRecord}
    (hr : r ∈ pendingRecords dbs) : ¬ dbs.Uploaded r.decisionId := by
  obtain ⟨hr, hp⟩ := List.mem_filter.mp hr
  rintro ⟨x, hx, hid, hup⟩
  obtain rfl := List.inj_on_of_nodup_map h.auditRecords hx hr hid
  rw [hup] at hp
  cases hp

/-- **A run of the retry marks a pending record, where one still has its decision row, if and only if payloads can be
encrypted and the rows that it selects hold a record with its decision row and its application's encrypted payload, or
no pending record has its decision row.** -/
theorem retry_progress_iff {tables : RetryTables D} (hk : tables.Keyed)
    {order : List AuditRecord → List AuditRecord} (ho : ∀ rows, (order rows).Perm rows) (nonces : Nat → Nonce)
    {w : World}
    (hdb : w.dbs.production.Keyed) :
    ((∃ r ∈ pendingRecords w.dbs, HasDecision tables r) → ∃ r ∈ pendingRecords w.dbs,
        (retryPendingUploads C keys tables order nonces noFaults w).world.dbs.Uploaded r.decisionId) ↔
      (canEncrypt C keys = true ∧ ∃ r ∈ retryBatch order w.dbs, Retryable tables r) ∨
        ∀ r ∈ pendingRecords w.dbs, ¬ HasDecision tables r := by
  have hrec : ∀ r ∈ retryBatch order w.dbs, w.dbs.Recorded r.decisionId := fun r hr =>
    List.mem_map_of_mem (List.mem_filter.mp (retryBatch_subset ho w.dbs hr)).1
  have hrun := uploaded_retryLoop C keys hk nonces (retryBatch order w.dbs) (s := ⟨0, 0, 0, w⟩) hdb hrec
  constructor
  · intro h
    by_cases hd : ∃ r ∈ pendingRecords w.dbs, HasDecision tables r
    · obtain ⟨r, hr, hup⟩ := h hd
      rcases (hrun r.decisionId).mp hup with hup | ⟨x, hx, ⟨ha, hret⟩, -⟩
      · exact absurd hup (hdb.not_uploaded hr)
      · exact .inl ⟨ha, x, hx, hret⟩
    · exact .inr fun r hr hd' => hd ⟨r, hr, hd'⟩
  · rintro (⟨ha, r, hr, hret⟩ | hn) ⟨x, hx, hd⟩
    · exact ⟨r, retryBatch_subset ho w.dbs hr, (hrun r.decisionId).mpr (.inr ⟨r, hr, ⟨ha, hret⟩, rfl⟩)⟩
    · exact absurd hd (hn x hx)

end

namespace RetrySample

/-- The pending record of a decision, for an application. -/
def record (n application : Nat) : AuditRecord where
  id := Sample.uuid n
  decisionId := Sample.uuid n
  applicationId := Sample.uuid application
  guidelineVersionId := Sample.uuid 3
  affectedAgentTags := []
  agentOutputsHash := []
  recordHmac := []
  payloadS3Key := none
  payloadS3Uploaded := false
  writtenAt := Sample.now
  breachFlag := false
  breachFlaggedAt := none
  isDemo := false

/-- The decision row of such a record. -/
def decision (n : Nat) : DecisionRow WholeFloat where
  id := Sample.uuid n
  outcome := .approve
  agentOutputs := ⟨.obj [], trivial⟩
  confidence := floatZero WholeFloat
  rationaleChain := ⟨.arr [], trivial⟩
  isDemo := false

/-- An application with or without its encrypted payload. -/
def application (n : Nat) (payloadEncrypted : Option Bytes) : Application where
  id := Sample.uuid n
  applicantId := Sample.uuid n
  panHmac := []
  collateralValue := none
  cityTier := none
  dpdpConsentGiven := true
  payloadEncrypted := payloadEncrypted
  dataRetentionExpiresAt := Sample.now
  retentionWiped := payloadEncrypted.isNone
  retentionWipedAt := none
  isDemo := false

/-- A hundred records of a wiped application, and after them one of an application that is not wiped. -/
def records : List AuditRecord := (List.range 100).map (record · 0) ++ [record 100 1]

def tables : RetryTables WholeFloat :=
  ⟨(List.range 101).map decision, [application 0 none, application 1 (some [0])]⟩

def world : World :=
  ⟨⟨⟨records, (List.range 101).map fun n => ⟨Sample.uuid n, .approve⟩, [], [Sample.uuid 0, Sample.uuid 1]⟩,
    ⟨[], [], [], []⟩⟩, []⟩

/-- The record of the other application, which is pending. -/
def starved : { r : AuditRecord // r ∈ pendingRecords world.dbs } := ⟨record 100 1, by decide⟩

theorem keyed_tables : tables.Keyed := ⟨by decide, by decide⟩

theorem keyed_world : world.dbs.production.Keyed := ⟨by decide, by decide⟩

end RetrySample

/-- The rows come in the other order. -/
theorem retry_progress_iff_reversed :
    ((∃ r ∈ pendingRecords RetrySample.world.dbs, HasDecision RetrySample.tables r) →
        ∃ r ∈ pendingRecords RetrySample.world.dbs,
          (retryPendingUploads Sample.crypto Sample.keys RetrySample.tables List.reverse (fun _ => Sample.nonce)
            noFaults RetrySample.world).world.dbs.Uploaded r.decisionId) ↔
      (canEncrypt Sample.crypto Sample.keys = true ∧
          ∃ r ∈ retryBatch List.reverse RetrySample.world.dbs, Retryable RetrySample.tables r) ∨
        ∀ r ∈ pendingRecords RetrySample.world.dbs, ¬ HasDecision RetrySample.tables r :=
  retry_progress_iff RetrySample.keyed_tables List.reverse_perm (fun _ => Sample.nonce) RetrySample.keyed_world

/-- A hundred rows of a wiped application fill the batch, and the run marks nothing. -/
theorem retry_starves :
    ¬ ∀ (tables : RetryTables WholeFloat) (order : List AuditRecord → List AuditRecord) (nonces : Nat → Nonce)
      (w : World), tables.Keyed → (∀ rows, (order rows).Perm rows) → w.dbs.production.Keyed →
      (∃ r ∈ pendingRecords w.dbs, HasDecision tables r) → ∃ r ∈ pendingRecords w.dbs,
        (retryPendingUploads Sample.crypto Sample.keys tables order nonces noFaults w).world.dbs.Uploaded
          r.decisionId := by
  intro h
  obtain ⟨r, hr, hup⟩ := h RetrySample.tables id (fun _ => Sample.nonce) RetrySample.world RetrySample.keyed_tables
    (fun _ => .refl _) RetrySample.keyed_world ⟨_, RetrySample.starved.property, RetrySample.decision 100, by
      exact List.mem_map_of_mem (List.mem_range.mpr (by decide)), rfl⟩
  have hbatch : ∀ x ∈ retryBatch id RetrySample.world.dbs, x.applicationId = Sample.uuid 0 := by decide
  have hrec : ∀ x ∈ retryBatch id RetrySample.world.dbs, RetrySample.world.dbs.Recorded x.decisionId := fun x hx =>
    List.mem_map_of_mem (List.mem_filter.mp (retryBatch_subset (fun _ => .refl _) RetrySample.world.dbs hx)).1
  have hrun := uploaded_retryLoop Sample.crypto Sample.keys RetrySample.keyed_tables (fun _ => Sample.nonce)
    (retryBatch id RetrySample.world.dbs) (s := ⟨0, 0, 0, RetrySample.world⟩) RetrySample.keyed_world hrec r.decisionId
  rcases hrun.mp hup with hup | ⟨x, hx, ⟨-, -, a, ha, hid, hp⟩, -⟩
  · exact RetrySample.keyed_world.not_uploaded hr hup
  · have hnone : ∀ a ∈ RetrySample.tables.applications, a.id = Sample.uuid 0 → a.payloadEncrypted = none := by decide
    exact hp (hnone a ha (hid.trans (hbatch x hx)))

end ComplianceLoop
