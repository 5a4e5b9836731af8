import ComplianceLoop.Db.DemoRows

/-!
# The retry of uploads and the demo rows

The retry selects its records by the demo flag, but it looks up the decision and the application of a record by their
ids alone. So it depends on the demo rows exactly when they decide for a pending record whether it can be uploaded
(`retryBlind_iff`).
-/

set_option autoImplicit false

namespace ComplianceLoop

open PyLib

variable {D : Type}

/-- Two runs of the retry, on tables with these audit records: the same counts, and the same marks outside the demo
rows. -/
structure BlindRetry (rows₁ rows₂ : List AuditRecord) (s₁ s₂ : RetryState) : Prop where
  attempted : s₁.attempted = s₂.attempted
  succeeded : s₁.succeeded = s₂.succeeded
  failed : s₁.failed = s₂.failed
  auditRecords : Blind AuditRecord.isDemo rows₁ rows₂ s₁.world.dbs.production.auditRecords
    s₂.world.dbs.production.auditRecords

/-- The columns that the retry selects a row by and that it never changes. -/
def retryColumns (r : AuditRecord) : Uuid × Bool := (r.decisionId, r.isDemo)

/-- A mark is visible outside the demo rows. -/
theorem uploaded_of_blindRetry {p₁ p₂ : ProductionTables D} {s₁ s₂ : RetryState}
    (h : BlindRetry p₁.auditRecords p₂.auditRecords s₁ s₂) (hk : p₁.Keyed)
    (hcolumns : s₁.world.dbs.production.auditRecords.map retryColumns = p₁.auditRecords.map retryColumns)
    {r : AuditRecord} (hr : r ∈ p₁.auditRecords) (hd : r.isDemo = false) (hup : s₁.world.dbs.Uploaded r.decisionId) :
    s₂.world.dbs.Uploaded r.decisionId := by
  obtain ⟨x, hx, hid, hmarked⟩ := hup
  have hcolumn : retryColumns x ∈ p₁.auditRecords.map retryColumns := hcolumns ▸ List.mem_map_of_mem hx
  obtain ⟨y, hy, hyx⟩ := List.mem_map.mp hcolumn
  obtain ⟨hyid, hyd⟩ := Prod.mk.inj hyx
  obtain rfl := List.inj_on_of_nodup_map hk.auditRecords hy hr (hyid.trans hid)
  exact ⟨x, (mem_iff_of_agree h.auditRecords.agree (hyd.symm.trans hd)).mp hx, hid, hmarked⟩

section

variable [FloatOps D] (C : Crypto) (keys : Keys)

section

variable {tables : RetryTables D} {w : World} {r : AuditRecord} (nonce : Nonce) (faults : UploadFaults)

/-- A record that can be looked up is uploaded and marked where the upload and the mark succeed. -/
theorem retryRecord_of_retryable (hk : tables.Keyed) (hdb : w.dbs.production.Keyed) (hr : w.dbs.Recorded r.decisionId)
    (h : Retryable tables r) :
    (retryRecord C keys tables nonce faults w r).1 =
        (canEncrypt C keys && faults.put = .done && faults.mark = .done) ∧
      (retryRecord C keys tables nonce faults w r).2.dbs =
        if canEncrypt C keys = true ∧ faults.put = .done ∧ faults.mark ≠ .refused then
          w.dbs.marked r.decisionId (computePayloadS3Key (pyStr r.decisionId.str) r.writtenAt) else w.dbs := by
  obtain ⟨d, a, hl⟩ := retryLookup_of_retryable hk h
  rw [retryRecord, hl]
  exact uploadAuditPayload_retryArgs C keys hdb hr nonce faults d

/-- A record that cannot be looked up is left. -/
theorem retryRecord_of_not_retryable (hk : tables.Keyed) (h : ¬ Retryable tables r) :
    retryRecord C keys tables nonce faults w r = (false, w) := by
  rw [retryRecord, retryLookup_of_not_retryable hk h]

/-- When payloads cannot be encrypted, no record can be uploaded. -/
theorem retryRecord_of_noKey (hk : tables.Keyed) (hdb : w.dbs.production.Keyed) (hr : w.dbs.Recorded r.decisionId)
    (haes : ¬ canEncrypt C keys = true) :
    (retryRecord C keys tables nonce faults w r).1 = false ∧
      (retryRecord C keys tables nonce faults w r).2.dbs = w.dbs := by
  by_cases h : Retryable tables r
  · obtain ⟨hb, hw⟩ := retryRecord_of_retryable C keys nonce faults hk hdb hr h
    simp only [haes, Bool.false_and] at hb hw
    exact ⟨hb, hw⟩
  · rw [retryRecord_of_not_retryable C keys nonce faults hk h]
    exact ⟨rfl, rfl⟩

end

/-- A record of the batch, on tables where it can be looked up in both or in neither. -/
theorem retryRecord_blind {tables₁ tables₂ : RetryTables D} (hk₁ : tables₁.Keyed) (hk₂ : tables₂.Keyed)
    {w₁ w₂ : World} (hdb₁ : w₁.dbs.production.Keyed) (hdb₂ : w₂.dbs.production.Keyed) {r : AuditRecord}
    (hr₁ : w₁.dbs.Recorded r.decisionId) (hr₂ : w₂.dbs.Recorded r.decisionId)
    (hsame : canEncrypt C keys = true → (Retryable tables₁ r ↔ Retryable tables₂ r)) (nonce : Nonce)
    (faults : UploadFaults) :
    let done₁ := retryRecord C keys tables₁ nonce faults w₁ r
    let done₂ := retryRecord C keys tables₂ nonce faults w₂ r
    let s3Key := computePayloadS3Key (pyStr r.decisionId.str) r.writtenAt
    done₁.1 = done₂.1 ∧
      (done₁.2.dbs = w₁.dbs ∧ done₂.2.dbs = w₂.dbs ∨
        done₁.2.dbs = w₁.dbs.marked r.decisionId s3Key ∧ done₂.2.dbs = w₂.dbs.marked r.decisionId s3Key) := by
  intro done₁ done₂ s3Key
  by_cases haes : canEncrypt C keys = true
  · by_cases h : Retryable tables₁ r
    · obtain ⟨hb₁, hw₁⟩ := retryRecord_of_retryable C keys nonce faults hk₁ hdb₁ hr₁ h
      obtain ⟨hb₂, hw₂⟩ := retryRecord_of_retryable C keys nonce faults hk₂ hdb₂ hr₂ ((hsame haes).mp h)
      refine ⟨hb₁.trans hb₂.symm, ?_⟩
      rw [show done₁.2.dbs = _ from hw₁, show done₂.2.dbs = _ from hw₂]
      split
      · exact .inr ⟨rfl, rfl⟩
      · exact .inl ⟨rfl, rfl⟩
    · rw [show done₁ = _ from retryRecord_of_not_retryable C keys nonce faults hk₁ h,
        show done₂ = _ from retryRecord_of_not_retryable C keys nonce faults hk₂ (mt (hsame haes).mpr h)]
      exact ⟨rfl, .inl ⟨rfl, rfl⟩⟩
  · obtain ⟨hb₁, hw₁⟩ := retryRecord_of_noKey C keys nonce faults hk₁ hdb₁ hr₁ haes
    obtain ⟨hb₂, hw₂⟩ := retryRecord_of_noKey C keys nonce faults hk₂ hdb₂ hr₂ haes
    exact ⟨hb₁.trans hb₂.symm, .inl ⟨hw₁, hw₂⟩⟩

/-- A mark of a record that is no demo row. -/
theorem blind_markRow {rows₁ rows₂ : List AuditRecord} (h : rows₁.filter (!·.isDemo) = rows₂.filter (!·.isDemo))
    (hn₁ : (rows₁.map AuditRecord.decisionId).Nodup) (hn₂ : (rows₂.map AuditRecord.decisionId).Nodup) {x : AuditRecord}
    (hx : x ∈ rows₁) (hxd : x.isDemo = false) (k : PyStr) :
    Blind AuditRecord.isDemo rows₁ rows₂ (markRow x.decisionId k rows₁) (markRow x.decisionId k rows₂) := by
  have hkept : ∀ rows : List AuditRecord, (rows.map AuditRecord.decisionId).Nodup → x ∈ rows → ∀ a ∈ rows,
      a.isDemo = true →
        (if a.decisionId = x.decisionId then { a with payloadS3Uploaded := true, payloadS3Key := some k } else a) =
          a := by
    intro rows hn hx a ha hd
    refine if_neg fun he => ?_
    obtain rfl := List.inj_on_of_nodup_map hn ha hx he
    rw [hxd] at hd
    cases hd
  refine Blind.map h ?_ (hkept rows₁ hn₁ hx) (hkept rows₂ hn₂ ((mem_iff_of_agree h hxd).mp hx))
  intro a
  split <;> rfl

/-- One round of the loop. -/
theorem retryOne_blind {tables₁ tables₂ : RetryTables D} (hk₁ : tables₁.Keyed) (hk₂ : tables₂.Keyed)
    {rows₁ rows₂ : List AuditRecord} {s₁ s₂ : RetryState} (h : BlindRetry rows₁ rows₂ s₁ s₂)
    (hdb₁ : s₁.world.dbs.production.Keyed) (hdb₂ : s₂.world.dbs.production.Keyed) {r : AuditRecord}
    (hr : (r.decisionId, false) ∈ s₁.world.dbs.production.auditRecords.map retryColumns)
    (hsame : canEncrypt C keys = true → (Retryable tables₁ r ↔ Retryable tables₂ r)) (nonces : Nat → Nonce)
    (faults : Nat → UploadFaults) :
    let next₁ := retryOne C keys tables₁ nonces faults s₁ r
    let next₂ := retryOne C keys tables₂ nonces faults s₂ r
    BlindRetry rows₁ rows₂ next₁ next₂ ∧ next₁.world.dbs.production.Keyed ∧ next₂.world.dbs.production.Keyed := by
  intro next₁ next₂
  obtain ⟨x, hx, hxr⟩ := List.mem_map.mp hr
  obtain ⟨hxid, hxd⟩ := Prod.mk.inj hxr
  have hx₂ := (mem_iff_of_agree h.auditRecords.agree hxd).mp hx
  have hdone := retryRecord_blind C keys hk₁ hk₂ hdb₁ hdb₂ (List.mem_map.mpr ⟨x, hx, hxid⟩)
    (List.mem_map.mpr ⟨x, hx₂, hxid⟩) hsame (nonces s₁.attempted) (faults s₁.attempted)
  obtain ⟨hb, hworld⟩ := hdone
  have hnext₂ : next₂ = retryOne C keys tables₂ (fun _ => nonces s₁.attempted) (fun _ => faults s₁.attempted) s₂ r := by
    show retryOne C keys tables₂ nonces faults s₂ r = _
    unfold retryOne
    rw [← h.attempted]
  rw [hnext₂]
  have hcounts : ∀ b : Bool,
      (if b then s₁.succeeded + 1 else s₁.succeeded) = (if b then s₂.succeeded + 1 else s₂.succeeded) ∧
      (if b then s₁.failed else s₁.failed + 1) = if b then s₂.failed else s₂.failed + 1 := by
    intro b
    rw [h.succeeded, h.failed]
    exact ⟨rfl, rfl⟩
  -- the records are left alone in both databases, or the same record is marked in both
  let done₁ := retryRecord C keys tables₁ (nonces s₁.attempted) (faults s₁.attempted) s₁.world r
  let done₂ := retryRecord C keys tables₂ (nonces s₁.attempted) (faults s₁.attempted) s₂.world r
  have htables : Blind AuditRecord.isDemo rows₁ rows₂ done₁.2.dbs.production.auditRecords
      done₂.2.dbs.production.auditRecords ∧ done₁.2.dbs.production.Keyed ∧ done₂.2.dbs.production.Keyed := by
    rcases hworld with ⟨hw₁, hw₂⟩ | ⟨hw₁, hw₂⟩
    · rw [hw₁, hw₂]
      exact ⟨h.auditRecords, hdb₁, hdb₂⟩
    · rw [hw₁, hw₂, ← hxid]
      refine ⟨h.auditRecords.trans ?_, hdb₁.marked _ _, hdb₂.marked _ _⟩
      exact blind_markRow h.auditRecords.agree hdb₁.auditRecords hdb₂.auditRecords hx hxd _
  refine ⟨⟨?_, ?_, ?_, htables.1⟩, htables.2⟩
  · exact congrArg (· + 1) h.attempted
  · exact (hcounts done₁.1).1.trans (by rw [hb]; rfl)
  · exact (hcounts done₁.1).2.trans (by rw [hb]; rfl)

/-- The loop. -/
theorem retryLoop_blind {tables₁ tables₂ : RetryTables D} (hk₁ : tables₁.Keyed) (hk₂ : tables₂.Keyed)
    {rows₁ rows₂ : List AuditRecord} (nonces : Nat → Nonce) (faults : Nat → UploadFaults) (batch : List AuditRecord)
    {s₁ s₂ : RetryState} (h : BlindRetry rows₁ rows₂ s₁ s₂) (hdb₁ : s₁.world.dbs.production.Keyed)
    (hdb₂ : s₂.world.dbs.production.Keyed)
    (hr : ∀ r ∈ batch, (r.decisionId, false) ∈ s₁.world.dbs.production.auditRecords.map retryColumns)
    (hsame : canEncrypt C keys = true → ∀ r ∈ batch, Retryable tables₁ r ↔ Retryable tables₂ r) :
    BlindRetry rows₁ rows₂ (batch.foldl (retryOne C keys tables₁ nonces faults) s₁)
      (batch.foldl (retryOne C keys tables₂ nonces faults) s₂) := by
  induction batch generalizing s₁ s₂ with
  | nil => exact h
  | cons r batch ih =>
    rw [List.forall_mem_cons] at hr
    obtain ⟨hnext, hnext₁, hnext₂⟩ := retryOne_blind C keys hk₁ hk₂ h hdb₁ hdb₂ hr.1
      (fun ha => hsame ha r List.mem_cons_self) nonces faults
    rw [List.foldl_cons, List.foldl_cons]
    refine ih hnext hnext₁ hnext₂ ?_ ?_
    · intro x hx
      have hcolumns : (retryRecord C keys tables₁ (nonces s₁.attempted) (faults s₁.attempted) s₁.world
          r).2.dbs.production.auditRecords.map retryColumns = s₁.world.dbs.production.auditRecords.map retryColumns :=
        map_retryRecord (fun _ _ => rfl) tables₁ _ _ s₁.world r
      exact hcolumns ▸ hr.2 x hx
    · exact fun ha x hx => hsame ha x (List.mem_cons_of_mem r hx)

/-- The retry does not depend on the demo rows, in whatever order the records are selected and however far its requests
get. -/
def RetryBlind (p₁ p₂ : ProductionTables D) : Prop :=
  ∀ (order : List AuditRecord → List AuditRecord) (nonces : Nat → Nonce) (faults : Nat → UploadFaults)
    (demo : Database) (objects : List (PyStr × Bytes)), (∀ rows, (order rows).Perm rows) →
      BlindRetry p₁.auditRecords p₂.auditRecords
        (retryPendingUploads C keys p₁.retry order nonces faults ⟨⟨p₁.database, demo⟩, objects⟩)
        (retryPendingUploads C keys p₂.retry order nonces faults ⟨⟨p₂.database, demo⟩, objects⟩)

variable {C keys} {p₁ p₂ : ProductionTables D}

/-- The order that selects one record first. -/
def recordFirst (r : AuditRecord) (rows : List AuditRecord) : List AuditRecord :=
  if r ∈ rows then r :: rows.erase r else rows

theorem recordFirst_perm (r : AuditRecord) (rows : List AuditRecord) : (recordFirst r rows).Perm rows := by
  unfold recordFirst
  split
  · rename_i h
    exact (List.perm_cons_erase h).symm
  · exact .refl rows

/-- With the record first and no faults, a run marks it if and only if it can be looked up. -/
theorem uploaded_recordFirst (hk : p₁.Keyed) (haes : canEncrypt C keys = true) {r : AuditRecord}
    (hr : r ∈ p₁.auditRecords) (hup : r.payloadS3Uploaded = false) (hd : r.isDemo = false) (nonces : Nat → Nonce)
    (demo : Database) :
    let w : World := ⟨⟨p₁.database, demo⟩, []⟩
    (retryPendingUploads C keys p₁.retry (recordFirst r) nonces noFaults w).world.dbs.Uploaded r.decisionId ↔
      Retryable p₁.retry r := by
  intro w
  have hdb : w.dbs.production.Keyed := hk.database
  have hpending : r ∈ pendingRecords w.dbs := List.mem_filter.mpr ⟨hr, by simp [hup, hd]⟩
  have hbatch : retryBatch (recordFirst r) w.dbs = r :: ((pendingRecords w.dbs).erase r).take 99 := by
    rw [retryBatch, recordFirst, if_pos hpending]
    rfl
  have hsub := retryBatch_subset (recordFirst_perm r) w.dbs
  have hrecorded : ∀ x ∈ retryBatch (recordFirst r) w.dbs, w.dbs.Recorded x.decisionId := fun x hx =>
    List.mem_map_of_mem (List.mem_filter.mp (hsub hx)).1
  have hrun := uploaded_retryLoop C keys hk.retry nonces (retryBatch (recordFirst r) w.dbs) (s := ⟨0, 0, 0, w⟩) hdb
    hrecorded r.decisionId
  refine hrun.trans ⟨?_, fun h => ?_⟩
  · rintro (hmarked | ⟨x, hx, ⟨-, hret⟩, hid⟩)
    · exact absurd hmarked (hdb.not_uploaded hpending)
    · obtain rfl := List.inj_on_of_nodup_map hk.auditRecords (List.mem_filter.mp (hsub hx)).1 hr hid
      exact hret
  · exact .inr ⟨r, by rw [hbatch]; exact List.mem_cons_self, ⟨haes, h⟩, rfl⟩

/-- **The retry does not depend on the demo rows if and only if payloads cannot be encrypted, or every pending record
can be looked up on both sides or on neither.** -/
theorem retryBlind_iff (h : p₁.Agree p₂) (hk₁ : p₁.Keyed) (hk₂ : p₂.Keyed) :
    RetryBlind C keys p₁ p₂ ↔
      (canEncrypt C keys = true → ∀ r ∈ p₁.auditRecords, r.payloadS3Uploaded = false → r.isDemo = false →
        (Retryable p₁.retry r ↔ Retryable p₂.retry r)) := by
  constructor
  · intro hblind haes r hr hup hd
    have hr₂ := (mem_iff_of_agree h.auditRecords hd).mp hr
    let demo : Database := ⟨[], [], [], []⟩
    let nonces : Nat → Nonce := fun _ => ⟨List.replicate 12 0, rfl⟩
    have hrun := hblind (recordFirst r) nonces noFaults demo [] (recordFirst_perm r)
    have hcolumns : ∀ p : ProductionTables D,
        (retryPendingUploads C keys p.retry (recordFirst r) nonces noFaults
          ⟨⟨p.database, demo⟩, []⟩).world.dbs.production.auditRecords.map retryColumns =
            p.auditRecords.map retryColumns := fun p => map_retryLoop (fun _ _ => rfl) _ _ _ _ _
    have hback : BlindRetry p₂.auditRecords p₁.auditRecords _ _ :=
      ⟨hrun.attempted.symm, hrun.succeeded.symm, hrun.failed.symm, hrun.auditRecords.agree.symm,
        hrun.auditRecords.demo₂, hrun.auditRecords.demo₁⟩
    have hmark₁ := uploaded_recordFirst (C := C) hk₁ haes hr hup hd nonces demo
    have hmark₂ := uploaded_recordFirst (C := C) hk₂ haes hr₂ hup hd nonces demo
    constructor
    · exact fun hret => hmark₂.mp (uploaded_of_blindRetry hrun hk₁ (hcolumns p₁) hr hd (hmark₁.mpr hret))
    · exact fun hret => hmark₁.mp (uploaded_of_blindRetry hback hk₂ (hcolumns p₂) hr₂ hd (hmark₂.mpr hret))
  · intro hsame order nonces faults demo objects ho
    have hpending : pendingRecords ⟨p₁.database, demo⟩ = pendingRecords ⟨p₂.database, demo⟩ :=
      filter_eq_of_agree h.auditRecords fun r hr => by
        have := (Bool.and_eq_true_iff.mp hr).2
        simpa using this
    unfold retryPendingUploads
    rw [show retryBatch order (⟨⟨p₂.database, demo⟩, objects⟩ : World).dbs =
      retryBatch order (⟨⟨p₁.database, demo⟩, objects⟩ : World).dbs from by rw [retryBatch, retryBatch, hpending]]
    have hmem : ∀ r ∈ retryBatch order ⟨p₁.database, demo⟩,
        r ∈ p₁.auditRecords ∧ r.payloadS3Uploaded = false ∧ r.isDemo = false := by
      intro r hr
      obtain ⟨hr, hp⟩ := List.mem_filter.mp (retryBatch_subset ho _ hr)
      simp only [Bool.and_eq_true, Bool.not_eq_true'] at hp
      exact ⟨hr, hp⟩
    refine retryLoop_blind C keys hk₁.retry hk₂.retry nonces faults _ ⟨rfl, rfl, rfl, .refl h.auditRecords⟩ hk₁.database
      hk₂.database ?_ ?_
    · intro r hr
      obtain ⟨hr, -, hd⟩ := hmem r hr
      exact List.mem_map.mpr ⟨r, hr, by rw [retryColumns, hd]⟩
    · intro haes r hr
      obtain ⟨hr, hup, hd⟩ := hmem r hr
      exact hsame haes r hr hup hd

end

end ComplianceLoop
