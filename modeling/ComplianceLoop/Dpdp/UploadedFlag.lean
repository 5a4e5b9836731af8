import ComplianceLoop.Audit.Editing
import ComplianceLoop.Dpdp.Storage

/-!
# The uploaded flag

Verification and wiping both go by `payload_s3_uploaded`. A put and a write keep the flags truthful; a mark does where
its object is still there, and a removal does where no marked record has the key. `wipe_minio_payloads` removes the
objects of marked records and leaves the flags, so the flags stay truthful exactly in the runs in which no removal hits
such an object and no mark comes after one (`flagTruthful_iff`).
-/

set_option autoImplicit false

namespace ComplianceLoop

open PyLib Transition

variable {D : Type}

/-- The bucket has an object under the key. -/
def World.HasObject (w : World) (k : PyStr) : Prop := k ∈ w.objects.map Prod.fst

/-- Every marked record has its object. -/
def FlagTruthful (s : Storage D) : Prop :=
  ∀ r ∈ s.world.dbs.auditRows, r.payloadS3Uploaded = true → ∃ k, r.payloadS3Key = some k ∧ s.world.HasObject k

/-- A mark finds its object, and a removal hits no object of a marked record. -/
def ObjectKept (s : Storage D) : StorageStep D → Prop
  | .mark p attempt => attempt ≠ .refused → ∀ args, s.uploads p = some ⟨args, true⟩ →
    ∀ u, uuidOf args.decisionId = .ok u → s.world.dbs.Recorded u → s.world.HasObject args.s3Key
  | .remove p attempt => attempt ≠ .refused → ∀ r k ks, s.removals p = some r → r.keys = k :: ks →
    ∀ x ∈ s.world.dbs.auditRows, x.payloadS3Uploaded = true → x.payloadS3Key ≠ some k
  | _ => True

/-! ## The stores -/

theorem mem_map_fst_setItem {α β : Type} [DecidableEq α] {j k : α} {v : β} {xs : List (α × β)} :
    j ∈ (setItem k v xs).map Prod.fst ↔ j = k ∨ j ∈ xs.map Prod.fst := by
  induction xs with
  | nil => simp [setItem]
  | cons x xs ih =>
    rw [setItem]
    split
    · rename_i he
      rw [List.map_cons, List.map_cons, List.mem_cons, List.mem_cons, he, ← or_assoc, or_self]
    · rw [List.map_cons, List.map_cons, List.mem_cons, List.mem_cons, ih]
      tauto

theorem mem_map_fst_filter {α β : Type} [DecidableEq α] {j k : α} {xs : List (α × β)} :
    j ∈ (xs.filter (·.1 ≠ k)).map Prod.fst ↔ j ∈ xs.map Prod.fst ∧ j ≠ k := by
  simp only [List.mem_map, List.mem_filter, decide_eq_true_eq]
  constructor
  · rintro ⟨x, ⟨hx, hk⟩, rfl⟩
    exact ⟨⟨x, hx, rfl⟩, hk⟩
  · rintro ⟨⟨x, hx, rfl⟩, hk⟩
    exact ⟨x, ⟨hx, hk⟩, rfl⟩

/-- What a mark does to the databases. -/
theorem markUploaded_snd {dbs : Databases} (hdb : dbs.production.Keyed) (attempt : Attempt) (d k : PyStr) :
    (∃ u, attempt ≠ .refused ∧ uuidOf d = .ok u ∧ dbs.Recorded u ∧
        (markUploaded attempt d k dbs).2 = dbs.marked u k) ∨
      (attempt = .refused ∨ ∀ u, uuidOf d = .ok u → ¬ dbs.Recorded u) ∧ (markUploaded attempt d k dbs).2 = dbs := by
  cases hd : uuidOf d with
  | error e => exact .inr ⟨.inr (fun u h => by cases h), by rw [markUploaded, hd]; rfl⟩
  | ok u =>
    by_cases hu : dbs.Recorded u
    · obtain ⟨r, hr, rfl⟩ := List.mem_map.mp hu
      have hquery : scalarOneOrNone (dbs.getSessionContext.auditRecordsOf r.decisionId) = .ok (some r) := by
        show scalarOneOrNone (dbs.production.auditRecordsOf r.decisionId) = _
        rw [hdb.auditRecordsOf_eq hr]
        rfl
      by_cases ha : attempt = .refused
      · subst ha
        exact .inr ⟨.inl rfl, by rw [markUploaded, hd, ok_bind, hquery]; rfl⟩
      · refine .inl ⟨r.decisionId, ha, rfl, hu, ?_⟩
        rw [markUploaded, hd, ok_bind, hquery]
        exact Attempt.run_snd ha _ _ _
    · refine .inr ⟨.inr fun v hv => ?_, ?_⟩
      · obtain rfl := Except.ok.inj hv
        exact hu
      · have hquery : scalarOneOrNone (dbs.getSessionContext.auditRecordsOf u) = .ok none := by
          show scalarOneOrNone (dbs.production.auditRecords.filter (·.decisionId = u)) = _
          rw [filter_key_eq_nil fun r hr he => hu (List.mem_map.mpr ⟨r, hr, he⟩)]
          rfl
        rw [markUploaded, hd, ok_bind, hquery]
        rfl

/-- A write adds a record that is not marked, or leaves the records alone. -/
theorem writeNode_records [FloatOps D] {C : Crypto} {env : WriteEnv D} {dbs : Databases} (hdb : dbs.production.Keyed)
    (state : PipelineState D) :
    (writeNode C env dbs state).dbs.production.Keyed ∧
      ∀ x ∈ (writeNode C env dbs state).dbs.auditRows, x ∈ dbs.auditRows ∨ x.payloadS3Uploaded = false := by
  by_cases hc : Commits env dbs state
  · obtain ⟨i, hd, hacc, -⟩ := writeNode_of_commits (C := C) hc
    rw [hd]
    constructor
    · have hins := hdb.insertAuditRecord (i.prepared C dbs).record .done
      rw [Database.insertAuditRecord, if_pos hacc] at hins
      exact hins
    · intro x hx
      rcases mem_auditRows_withRecord hx with hx | rfl
      · exact .inl hx
      · exact .inr rfl
  · rw [(writeNode_of_not_commits hc).2.1]
    exact ⟨hdb, fun x hx => .inl hx⟩

/-! ## Steps and runs -/

section

variable [FloatOps D] {C : Crypto} {keys : Keys} {s s' : Storage D}

omit [FloatOps D] in
theorem FlagTruthful.of_same (hp : FlagTruthful s) (h : s.Same s') : FlagTruthful s' := by
  rw [FlagTruthful, h.world]
  exact hp

/-- A mark keeps the flags truthful exactly when its object is there. -/
theorem flagTruthful_marked {dbs : Databases} {objects : List (PyStr × Bytes)} {u : Uuid} {k : PyStr}
    (hu : dbs.Recorded u) (hp : ∀ r ∈ dbs.auditRows, r.payloadS3Uploaded = true →
      ∃ j, r.payloadS3Key = some j ∧ (World.mk dbs objects).HasObject j) :
    (∀ r ∈ (dbs.marked u k).auditRows, r.payloadS3Uploaded = true →
        ∃ j, r.payloadS3Key = some j ∧ (World.mk dbs objects).HasObject j) ↔ (World.mk dbs objects).HasObject k := by
  constructor
  · intro h
    obtain ⟨r, hr, rfl⟩ := List.mem_map.mp hu
    have hmem : { r with payloadS3Uploaded := true, payloadS3Key := some k } ∈ (dbs.marked r.decisionId k).auditRows :=
      List.mem_append_left _ (List.mem_map.mpr ⟨r, hr, if_pos rfl⟩)
    obtain ⟨j, hj, ho⟩ := h _ hmem rfl
    obtain rfl : k = j := Option.some.inj hj
    exact ho
  · intro hk r hr hup
    rcases List.mem_append.mp hr with hr | hr
    · obtain ⟨x, hx, rfl⟩ := List.mem_map.mp hr
      by_cases h : x.decisionId = u
      · rw [if_pos h]
        exact ⟨k, rfl, hk⟩
      · rw [if_neg h] at hup ⊢
        exact hp x (List.mem_append_left _ hx) hup
    · exact hp r (List.mem_append_right _ hr) hup

/-- A removal keeps the flags truthful exactly when no marked record has its object. -/
theorem flagTruthful_removed {dbs : Databases} {objects : List (PyStr × Bytes)} {k : PyStr}
    (hp : ∀ r ∈ dbs.auditRows, r.payloadS3Uploaded = true →
      ∃ j, r.payloadS3Key = some j ∧ (World.mk dbs objects).HasObject j) :
    (∀ r ∈ dbs.auditRows, r.payloadS3Uploaded = true →
        ∃ j, r.payloadS3Key = some j ∧ (World.mk dbs (objects.filter (·.1 ≠ k))).HasObject j) ↔
      ∀ r ∈ dbs.auditRows, r.payloadS3Uploaded = true → r.payloadS3Key ≠ some k := by
  refine forall_congr' fun r => forall_congr' fun hr => forall_congr' fun hup => ?_
  obtain ⟨j, hj, ho⟩ := hp r hr hup
  constructor
  · rintro ⟨i, hi, hrest⟩ hk
    obtain rfl := Option.some.inj (hi.symm.trans hk)
    exact (mem_map_fst_filter.mp hrest).2 rfl
  · intro hk
    refine ⟨j, hj, mem_map_fst_filter.mpr ⟨ho, ?_⟩⟩
    rintro rfl
    exact hk hj

/-- **One step keeps the flags truthful exactly when it is no mark without its object and no removal of the object of
a marked record.** -/
theorem flagTruthful_step {l : StorageStep D} (hk : s.world.dbs.production.Keyed) (hp : FlagTruthful s)
    (h : (storageSystem D C keys).step s l = some s') :
    s'.world.dbs.production.Keyed ∧ (FlagTruthful s' ↔ ObjectKept s l) := by
  have hsame : s.Same s' → s'.world.dbs.production.Keyed ∧ FlagTruthful s' := fun hs => ⟨hs.world ▸ hk, hp.of_same hs⟩
  cases l with
  | retrySelect p order => exact (hsame (same_of_isQuiet rfl h)).imp_right fun h => iff_of_true h trivial
  | retryNext p => exact (hsame (same_of_isQuiet rfl h)).imp_right fun h => iff_of_true h trivial
  | removeSelect p ids => exact (hsame (same_of_isQuiet rfl h)).imp_right fun h => iff_of_true h trivial
  | crash p => exact (hsame (same_of_isQuiet rfl h)).imp_right fun h => iff_of_true h trivial
  | wipe l =>
    obtain ⟨-, hw, -⟩ := step_wipe h
    rw [FlagTruthful, hw]
    exact ⟨hk, iff_of_true hp trivial⟩
  | write p env state =>
    obtain ⟨hw, -⟩ := step_write h
    obtain ⟨hkeyed, hrows⟩ : (writeNode C env s.world.dbs state).dbs.production.Keyed ∧ _ :=
      writeNode_records hk state
    rw [FlagTruthful, hw]
    refine ⟨hkeyed, iff_of_true (fun x hx hup => ?_) trivial⟩
    rcases hrows x hx with hx | hnot
    · exact hp x hx hup
    · rw [hnot] at hup
      cases hup
  | put p nonce attempt =>
    obtain ⟨args, -, ⟨-, hs⟩ | ⟨e, -, -, hw, -⟩⟩ := step_put h
    · exact (hsame hs).imp_right fun h => iff_of_true h trivial
    · rw [FlagTruthful, hw]
      refine ⟨hk, iff_of_true (fun x hx hup => ?_) trivial⟩
      obtain ⟨k, hxk, ho⟩ := hp x hx hup
      exact ⟨k, hxk, mem_map_fst_setItem.mpr (.inr ho)⟩
  | mark p attempt =>
    obtain ⟨args, hu, hw, -⟩ := step_mark h
    rcases markUploaded_snd hk attempt args.decisionId args.s3Key with ⟨u, ha, hd, hr, hm⟩ | ⟨hno, hm⟩
    · rw [FlagTruthful, hw, hm]
      refine ⟨hk.marked u args.s3Key, (flagTruthful_marked hr hp).trans ?_⟩
      constructor
      · rintro ho - args' hu' - - -
        obtain ⟨rfl, -⟩ := Upload.mk.inj (Option.some.inj (hu.symm.trans hu'))
        exact ho
      · exact fun hg => hg ha args hu u hd hr
    · rw [FlagTruthful, hw, hm]
      refine ⟨hk, iff_of_true hp ?_⟩
      rintro ha args' hu' u hd hr
      obtain ⟨rfl, -⟩ := Upload.mk.inj (Option.some.inj (hu.symm.trans hu'))
      rcases hno with hno | hno
      · exact absurd hno ha
      · exact absurd hr (hno u hd)
  | remove p attempt =>
    obtain ⟨r, k, ks, hr, hks, ⟨ha, hs⟩ | ⟨ha, hw, -⟩⟩ := step_remove h
    · exact (hsame hs).imp_right fun h => iff_of_true h fun ha' => absurd ha ha'
    · rw [FlagTruthful, hw]
      refine ⟨hk, (flagTruthful_removed hp).trans ?_⟩
      constructor
      · rintro hkept - r' k' ks' hr' hks'
        obtain rfl := Option.some.inj (hr.symm.trans hr')
        obtain ⟨rfl, -⟩ := List.cons.inj (hks.symm.trans hks')
        exact hkept
      · exact fun hg => hg ha r k ks hr hks

/-- **In a run of the tasks every marked record has its object all the time if and only if every mark finds its object
and no removal hits the object of a marked record.** -/
theorem flagTruthful_iff (C : Crypto) (keys : Keys) (hk : s.world.dbs.production.Keyed) (hp : FlagTruthful s)
    (ls : List (StorageStep D)) :
    (storageSystem D C keys).Always FlagTruthful s ls ↔ (storageSystem D C keys).Each ObjectKept s ls :=
  System.always_iff_each (I := fun s : Storage D => s.world.dbs.production.Keyed)
    (fun hk hp h => flagTruthful_step hk hp h) hk hp

end

/-- A pending record is uploaded by the retry. -/
theorem flagTruthful_iff_uploaded :
    (storageSystem WholeFloat Sample.crypto Sample.keys).Always FlagTruthful StorageSample.start StorageSample.upload ↔
      (storageSystem WholeFloat Sample.crypto Sample.keys).Each ObjectKept StorageSample.start StorageSample.upload :=
  flagTruthful_iff Sample.crypto Sample.keys StorageSample.keyed (fun _ h hup => by
    rw [StorageSample.not_uploaded _ h] at hup
    cases hup) StorageSample.upload

/-- After that, the removal of the payload leaves the flag. -/
theorem removed_object_flagged :
    ¬ ∀ (s s' : Storage WholeFloat) (ls : List (StorageStep WholeFloat)), s.world.dbs.production.Keyed →
      (∀ r ∈ s.world.dbs.auditRows, r.payloadS3Uploaded = false) →
      (storageSystem WholeFloat Sample.crypto Sample.keys).run s ls = some s' → FlagTruthful s' := by
  intro h
  have hrun : ((storageSystem WholeFloat Sample.crypto Sample.keys).run StorageSample.start
      (StorageSample.upload ++ [.removeSelect 1 [(Sample.uuid 1).str], .remove 1 .done])).map (fun s =>
        (s.world.dbs.auditRows.map AuditRecord.payloadS3Uploaded, s.world.objects)) = some ([true], []) := by
    decide
  obtain ⟨s, hs, heq⟩ := Option.map_eq_some_iff.mp hrun
  obtain ⟨hflag, hobjects⟩ := Prod.mk.inj heq
  have hmem : true ∈ s.world.dbs.auditRows.map AuditRecord.payloadS3Uploaded := by
    rw [hflag]
    exact List.mem_singleton_self true
  obtain ⟨r, hr, hup⟩ := List.mem_map.mp hmem
  obtain ⟨k, -, ho⟩ := h _ s _ StorageSample.keyed StorageSample.not_uploaded hs r hr hup
  rw [World.HasObject, hobjects] at ho
  cases ho

end ComplianceLoop
