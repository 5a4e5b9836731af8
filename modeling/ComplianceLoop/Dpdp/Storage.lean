import ComplianceLoop.Audit.RetryUploads
import ComplianceLoop.Dpdp.WipeTransactions

/-!
# The tasks around the bucket

Audit writes, uploads, retries, wipes and `wipe_minio_payloads` in any order. An upload is two steps, the put of the
object and the mark of the record; a retry looks its records up one by one; `wipe_minio_payloads` reads the keys of the
marked records and removes the objects one by one. Every request may fail, and every worker may crash. Run without
interruption, the two steps of an upload are `uploadAuditPayload` (`put_mark_eq_upload`).

`contents` remembers whose payload was put under a key; the bucket holds the encryption of exactly these
(`Mirrors.step`).
-/

set_option autoImplicit false

namespace ComplianceLoop

open PyLib Transition

variable {D : Type}

/-- A running `upload_audit_payload`, before or after the put. -/
structure Upload (D : Type) where
  args : UploadArgs D
  placed : Bool

/-- A running `wipe_minio_payloads`: the keys that are left, and its counts. -/
structure Removal where
  keys : List PyStr
  deletedCount : Nat
  errorCount : Nat

/-- The databases, the bucket, the wipes and the running tasks. -/
structure Storage (D : Type) where
  world : World
  wipes : WipeState
  decisions : List (DecisionRow D)
  contents : List (PyStr × UploadArgs D)
  uploads : Nat → Option (Upload D)
  retries : Nat → List AuditRecord
  removals : Nat → Option Removal

/-- The steps of the tasks; a task has a number. -/
inductive StorageStep (D : Type) where
  /-- `write_node`; the upload that it schedules becomes a task. -/
  | write (p : Nat) (env : WriteEnv D) (state : PipelineState D)
  /-- The SELECT of a retry. -/
  | retrySelect (p : Nat) (order : List AuditRecord → List AuditRecord)
  /-- A retry looks up its next record. -/
  | retryNext (p : Nat)
  /-- An upload encrypts and puts its payload. -/
  | put (p : Nat) (nonce : Nonce) (attempt : Attempt)
  /-- An upload marks the record. -/
  | mark (p : Nat) (attempt : Attempt)
  /-- A statement of a wipe transaction. -/
  | wipe (l : WipeLabel)
  /-- The SELECT of `wipe_minio_payloads`. -/
  | removeSelect (p : Nat) (applicationIds : List Text)
  /-- `wipe_minio_payloads` removes its next object. -/
  | remove (p : Nat) (attempt : Attempt)
  /-- A worker stops. -/
  | crash (p : Nat)

/-- The SELECT of `wipe_minio_payloads`: the keys of the marked records of these applications. -/
def payloadKeys (dbs : Databases) (applicationIds : List Uuid) : List PyStr :=
  dbs.getSessionContext.auditRecords.filterMap fun r =>
    if applicationIds.contains r.applicationId && r.payloadS3Uploaded then r.payloadS3Key else none

/-- `remove_object`; a missing key is no error. -/
def removeObject (attempt : Attempt) (s3Key : PyStr) (objects : List (PyStr × Bytes)) :
    Except PyExc Unit × List (PyStr × Bytes) :=
  attempt.run .storeError objects (objects.filter (·.1 ≠ s3Key))

namespace Storage

/-- No task has this number. -/
def isIdle (s : Storage D) (p : Nat) : Bool := (s.uploads p).isNone && (s.retries p).isEmpty && (s.removals p).isNone

variable [FloatOps D] (C : Crypto) (keys : Keys)

/-- One step; `none` where it is not possible. -/
def step (s : Storage D) : StorageStep D → Option (Storage D)
  | .write p env state =>
    if s.isIdle p then
      let w := writeNode C env s.world.dbs state
      some { s with
        world := { s.world with dbs := w.dbs }
        uploads := Function.update s.uploads p (w.scheduled.head?.map (⟨·, false⟩)) }
    else none
  | .retrySelect p order =>
    if s.isIdle p then some { s with retries := Function.update s.retries p (retryBatch order s.world.dbs) } else none
  | .retryNext p =>
    match s.uploads p, s.retries p with
    | none, r :: rs =>
      some { s with
        retries := Function.update s.retries p rs
        uploads := Function.update s.uploads p
          (match retryLookup ⟨s.decisions, s.wipes.db.applications⟩ r with
          | .ok (some (decision, _)) => some ⟨retryArgs decision r, false⟩
          | _ => none) }
    | _, _ => none
  | .put p nonce attempt =>
    match s.uploads p with
    | some ⟨args, false⟩ =>
      match encryptedPayload C keys nonce args with
      | .error _ => some { s with uploads := Function.update s.uploads p none }
      | .ok encryptedBytes =>
        let r := uploadToMinio attempt encryptedBytes args.s3Key s.world.objects
        some { s with
          world := { s.world with objects := r.2 }
          contents := (attempt.run .storeError s.contents (setItem args.s3Key args s.contents)).2
          uploads := Function.update s.uploads p (if returned r.1 then some ⟨args, true⟩ else none) }
    | _ => none
  | .mark p attempt =>
    match s.uploads p with
    | some ⟨args, true⟩ =>
      some { s with
        world := { s.world with dbs := (markUploaded attempt args.decisionId args.s3Key s.world.dbs).2 }
        uploads := Function.update s.uploads p none }
    | _ => none
  | .wipe l => (s.wipes.step l).map fun wipes => { s with wipes := wipes }
  | .removeSelect p applicationIds =>
    if s.isIdle p then
      (applicationIds.mapM Uuid.parse).map fun ids =>
        { s with removals := Function.update s.removals p (some ⟨payloadKeys s.world.dbs ids, 0, 0⟩) }
    else none
  | .remove p attempt =>
    match s.removals p with
    | some ⟨s3Key :: ks, deleted, errors⟩ =>
      let r := removeObject attempt s3Key s.world.objects
      some { s with
        world := { s.world with objects := r.2 }
        contents := (attempt.run .storeError s.contents (s.contents.filter (·.1 ≠ s3Key))).2
        removals := Function.update s.removals p
          (some (if returned r.1 then ⟨ks, deleted + 1, errors⟩ else ⟨ks, deleted, errors + 1⟩)) }
    | _ => none
  | .crash p =>
    some { s with
      uploads := Function.update s.uploads p none
      retries := Function.update s.retries p []
      removals := Function.update s.removals p none }

end Storage

/-- The tasks as a system. -/
def storageSystem (D : Type) [FloatOps D] (C : Crypto) (keys : Keys) : System (Storage D) (StorageStep D) :=
  ⟨Storage.step C keys⟩

/-! ## What a step can do -/

/-- A request that is not refused takes effect. -/
theorem Attempt.run_snd {σ : Type} {attempt : Attempt} (h : attempt ≠ .refused) (type : ExcType) (before after : σ) :
    (attempt.run type before after).2 = after := by
  cases attempt with
  | done => rfl
  | refused => exact absurd rfl h
  | unacknowledged => rfl

/-- The state of the stores is the same. -/
structure Storage.Same (s s' : Storage D) : Prop where
  world : s'.world = s.world
  wipes : s'.wipes = s.wipes
  contents : s'.contents = s.contents

/-- The steps that only move a task on. -/
def StorageStep.isQuiet : StorageStep D → Bool
  | .retrySelect .. | .retryNext _ | .removeSelect .. | .crash _ => true
  | _ => false

section

variable [FloatOps D] {C : Crypto} {keys : Keys} {s s' : Storage D}

theorem same_of_isQuiet {l : StorageStep D} (hq : l.isQuiet = true) (h : (storageSystem D C keys).step s l = some s') :
    s.Same s' := by
  have h : Storage.step C keys s l = some s' := h
  cases l with
  | retrySelect p order =>
    rw [Storage.step] at h
    split at h
    · obtain rfl := Option.some.inj h
      exact ⟨rfl, rfl, rfl⟩
    · cases h
  | retryNext p =>
    rw [Storage.step] at h
    split at h
    · obtain rfl := Option.some.inj h
      exact ⟨rfl, rfl, rfl⟩
    · cases h
  | removeSelect p applicationIds =>
    rw [Storage.step] at h
    split at h
    · obtain ⟨ids, -, rfl⟩ := Option.map_eq_some_iff.mp h
      exact ⟨rfl, rfl, rfl⟩
    · cases h
  | crash p =>
    obtain rfl := Option.some.inj h
    exact ⟨rfl, rfl, rfl⟩
  | write p env state => cases hq
  | put p nonce attempt => cases hq
  | mark p attempt => cases hq
  | wipe l => cases hq
  | remove p attempt => cases hq

theorem step_write {p : Nat} {env : WriteEnv D} {state : PipelineState D}
    (h : (storageSystem D C keys).step s (.write p env state) = some s') :
    s'.world = { s.world with dbs := (writeNode C env s.world.dbs state).dbs } ∧ s'.wipes = s.wipes ∧
      s'.contents = s.contents := by
  have h : Storage.step C keys s (.write p env state) = some s' := h
  rw [Storage.step] at h
  split at h
  · obtain rfl := Option.some.inj h
    exact ⟨rfl, rfl, rfl⟩
  · cases h

/-- A put leaves the stores alone, if it is refused or there is nothing to put, or puts the object. -/
theorem step_put {p : Nat} {nonce : Nonce} {attempt : Attempt}
    (h : (storageSystem D C keys).step s (.put p nonce attempt) = some s') :
    ∃ args, s.uploads p = some ⟨args, false⟩ ∧
      ((attempt = .refused ∨ returned (encryptedPayload C keys nonce args) = false) ∧ s.Same s' ∨
        ∃ e, attempt ≠ .refused ∧ encryptedPayload C keys nonce args = .ok e ∧
          s'.world = { s.world with objects := setItem args.s3Key e s.world.objects } ∧ s'.wipes = s.wipes ∧
            s'.contents = setItem args.s3Key args s.contents) := by
  have h : Storage.step C keys s (.put p nonce attempt) = some s' := h
  rw [Storage.step] at h
  split at h
  · rename_i args hu
    refine ⟨args, hu, ?_⟩
    split at h
    · rename_i e he
      obtain rfl := Option.some.inj h
      exact .inl ⟨.inr (by rw [he]; rfl), rfl, rfl, rfl⟩
    · rename_i e he
      obtain rfl := Option.some.inj h
      by_cases ha : attempt = .refused
      · subst ha
        exact .inl ⟨.inl rfl, rfl, rfl, rfl⟩
      · refine .inr ⟨e, ha, he, ?_, rfl, Attempt.run_snd ha _ _ _⟩
        show ({ s.world with objects := (attempt.run _ _ _).2 } : World) = _
        rw [Attempt.run_snd ha]
  · cases h

theorem step_mark {p : Nat} {attempt : Attempt} (h : (storageSystem D C keys).step s (.mark p attempt) = some s') :
    ∃ args, s.uploads p = some ⟨args, true⟩ ∧
      s'.world = { s.world with dbs := (markUploaded attempt args.decisionId args.s3Key s.world.dbs).2 } ∧
        s'.wipes = s.wipes ∧ s'.contents = s.contents := by
  have h : Storage.step C keys s (.mark p attempt) = some s' := h
  rw [Storage.step] at h
  split at h
  · rename_i args hu
    obtain rfl := Option.some.inj h
    exact ⟨args, hu, rfl, rfl, rfl⟩
  · cases h

theorem step_wipe {l : WipeLabel} (h : (storageSystem D C keys).step s (.wipe l) = some s') :
    wipeSystem.step s.wipes l = some s'.wipes ∧ s'.world = s.world ∧ s'.contents = s.contents := by
  obtain ⟨wipes, hw, rfl⟩ := Option.map_eq_some_iff.mp h
  exact ⟨hw, rfl, rfl⟩

/-- A removal leaves the stores alone, if it is refused, or removes the object. -/
theorem step_remove {p : Nat} {attempt : Attempt} (h : (storageSystem D C keys).step s (.remove p attempt) = some s') :
    ∃ r k ks, s.removals p = some r ∧ r.keys = k :: ks ∧
      (attempt = .refused ∧ s.Same s' ∨
        attempt ≠ .refused ∧ s'.world = { s.world with objects := s.world.objects.filter (·.1 ≠ k) } ∧
          s'.wipes = s.wipes ∧ s'.contents = s.contents.filter (·.1 ≠ k)) := by
  have h : Storage.step C keys s (.remove p attempt) = some s' := h
  rw [Storage.step] at h
  split at h
  · rename_i k ks deleted errors hr
    obtain rfl := Option.some.inj h
    refine ⟨_, k, ks, hr, rfl, ?_⟩
    by_cases ha : attempt = .refused
    · subst ha
      exact .inl ⟨rfl, rfl, rfl, rfl⟩
    · refine .inr ⟨ha, ?_, rfl, Attempt.run_snd ha _ _ _⟩
      show ({ s.world with objects := (attempt.run _ _ _).2 } : World) = _
      rw [Attempt.run_snd ha]
  · cases h

theorem step_mark_placed {p : Nat} {args : UploadArgs D} (hu : s.uploads p = some ⟨args, true⟩) (attempt : Attempt) :
    (storageSystem D C keys).step s (.mark p attempt) =
      some { s with
        world := { s.world with dbs := (markUploaded attempt args.decisionId args.s3Key s.world.dbs).2 }
        uploads := Function.update s.uploads p none } := by
  show Storage.step C keys s (.mark p attempt) = _
  rw [Storage.step, hu]

/-- **A put and a mark with nothing between them are `uploadAuditPayload`.** -/
theorem put_mark_eq_upload {p : Nat} {args : UploadArgs D} (hu : s.uploads p = some ⟨args, false⟩) (nonce : Nonce)
    (faults : UploadFaults) (h : (storageSystem D C keys).step s (.put p nonce faults.put) = some s') :
    (s'.uploads p = none ∧ s'.world = (uploadAuditPayload C keys nonce faults args s.world).2) ∨
      ∃ s'', (storageSystem D C keys).step s' (.mark p faults.mark) = some s'' ∧
        s''.world = (uploadAuditPayload C keys nonce faults args s.world).2 := by
  have h : Storage.step C keys s (.put p nonce faults.put) = some s' := h
  rw [Storage.step, hu] at h
  dsimp only at h
  rw [uploadAuditPayload]
  cases he : encryptedPayload C keys nonce args with
  | error e =>
    rw [he] at h
    obtain rfl := Option.some.inj h
    exact .inl ⟨Function.update_self p _ _, rfl⟩
  | ok e =>
    rw [he] at h
    obtain rfl := Option.some.inj h
    dsimp only
    cases hput : uploadToMinio faults.put e args.s3Key s.world.objects with
    | mk result objects =>
      cases result with
      | error x => exact .inl ⟨Function.update_self p _ _, rfl⟩
      | ok x =>
        have hplaced : Function.update s.uploads p (some ⟨args, true⟩) p = some ⟨args, true⟩ :=
          Function.update_self p _ _
        refine .inr ⟨_, step_mark_placed hplaced faults.mark, ?_⟩
        dsimp only
        cases markUploaded faults.mark args.decisionId args.s3Key s.world.dbs with
        | mk result dbs => cases result <;> rfl

end

/-! ## What the objects are -/

theorem forall₂_setItem {α β γ : Type} [DecidableEq α] {R : β → γ → Prop} {k : α} {b : β} {c : γ} (h : R b c)
    {xs : List (α × β)} {ys : List (α × γ)} (hxy : List.Forall₂ (fun x y => x.1 = y.1 ∧ R x.2 y.2) xs ys) :
    List.Forall₂ (fun x y => x.1 = y.1 ∧ R x.2 y.2) (setItem k b xs) (setItem k c ys) := by
  induction hxy with
  | nil => exact .cons ⟨rfl, h⟩ .nil
  | cons hhead hrest ih =>
    rw [setItem, setItem, hhead.1]
    split
    · exact .cons ⟨rfl, h⟩ hrest
    · exact .cons hhead ih

theorem forall₂_filter_key {α β γ : Type} [DecidableEq α] {R : β → γ → Prop} (k : α)
    {xs : List (α × β)} {ys : List (α × γ)} (hxy : List.Forall₂ (fun x y => x.1 = y.1 ∧ R x.2 y.2) xs ys) :
    List.Forall₂ (fun x y => x.1 = y.1 ∧ R x.2 y.2) (xs.filter (·.1 ≠ k)) (ys.filter (·.1 ≠ k)) := by
  induction hxy with
  | nil => exact .nil
  | @cons x y xs ys hhead hrest ih =>
    by_cases hk : y.1 = k
    · rw [List.filter_cons_of_neg (by simp [hhead.1, hk]), List.filter_cons_of_neg (by simp [hk])]
      exact ih
    · rw [List.filter_cons_of_pos (by simp [hhead.1, hk]), List.filter_cons_of_pos (by simp [hk])]
      exact .cons hhead ih

section

variable [FloatOps D] (C : Crypto) (keys : Keys)

/-- Every object of the bucket is the encryption of the payload that was put there. -/
def Mirrors (s : Storage D) : Prop :=
  List.Forall₂ (fun o c => o.1 = c.1 ∧ ∃ nonce, encryptedPayload C keys nonce c.2 = .ok o.2) s.world.objects s.contents

variable {C keys}

theorem Mirrors.map_fst {s : Storage D} (h : Mirrors C keys s) :
    s.world.objects.map Prod.fst = s.contents.map Prod.fst := by
  have : ∀ {xs : List (PyStr × Bytes)} {ys : List (PyStr × UploadArgs D)}, List.Forall₂ (fun o c => o.1 = c.1 ∧
      ∃ nonce, encryptedPayload C keys nonce c.2 = .ok o.2) xs ys → xs.map Prod.fst = ys.map Prod.fst := by
    intro xs ys h
    induction h with
    | nil => rfl
    | cons hr _ ih => rw [List.map_cons, List.map_cons, hr.1, ih]
  exact this h

theorem Mirrors.congr {s s' : Storage D} (h : Mirrors C keys s) (ho : s'.world.objects = s.world.objects)
    (hc : s'.contents = s.contents) : Mirrors C keys s' := by
  rw [Mirrors, ho, hc]
  exact h

/-- **Every step keeps the bucket the encryption of what was put there.** -/
theorem Mirrors.step {s s' : Storage D} (hm : Mirrors C keys s) {l : StorageStep D}
    (h : (storageSystem D C keys).step s l = some s') : Mirrors C keys s' := by
  have hsame : s.Same s' → Mirrors C keys s' := fun hs => hm.congr (congrArg World.objects hs.world) hs.contents
  cases l with
  | retrySelect p order => exact hsame (same_of_isQuiet rfl h)
  | retryNext p => exact hsame (same_of_isQuiet rfl h)
  | removeSelect p ids => exact hsame (same_of_isQuiet rfl h)
  | crash p => exact hsame (same_of_isQuiet rfl h)
  | write p env state =>
    obtain ⟨hw, -, hc⟩ := step_write h
    exact hm.congr (by rw [hw]) hc
  | mark p attempt =>
    obtain ⟨args, -, hw, -, hc⟩ := step_mark h
    exact hm.congr (by rw [hw]) hc
  | wipe l =>
    obtain ⟨-, hw, hc⟩ := step_wipe h
    exact hm.congr (by rw [hw]) hc
  | put p nonce attempt =>
    obtain ⟨args, -, ⟨-, hs⟩ | ⟨e, -, he, hw, -, hc⟩⟩ := step_put h
    · exact hsame hs
    · rw [Mirrors, hw, hc]
      exact forall₂_setItem (R := fun b c => ∃ nonce, encryptedPayload C keys nonce c = .ok b) ⟨nonce, he⟩ hm
  | remove p attempt =>
    obtain ⟨r, k, ks, -, -, ⟨-, hs⟩ | ⟨-, hw, -, hc⟩⟩ := step_remove h
    · exact hsame hs
    · rw [Mirrors, hw, hc]
      exact forall₂_filter_key (R := fun b c => ∃ nonce, encryptedPayload C keys nonce c = .ok b) k hm

end

namespace StorageSample

/-- A pending record with its decision, for an application that is not wiped; the bucket is empty. -/
def start : Storage WholeFloat where
  world := ⟨⟨⟨[RetrySample.record 1 1], [⟨Sample.uuid 1, .approve⟩], [], [Sample.uuid 1]⟩, ⟨[], [], [], []⟩⟩, []⟩
  wipes := ⟨⟨[RetrySample.application 1 (some [0])], []⟩, fun _ => none, .empty⟩
  decisions := [RetrySample.decision 1]
  contents := []
  uploads _ := none
  retries _ := []
  removals _ := none

/-- The retry uploads the record. -/
def upload : List (StorageStep WholeFloat) :=
  [.retrySelect 0 id, .retryNext 0, .put 0 Sample.nonce .done, .mark 0 .done]

theorem keyed : start.world.dbs.production.Keyed := ⟨by decide, by decide⟩

theorem not_uploaded : ∀ r ∈ start.world.dbs.auditRows, r.payloadS3Uploaded = false := by decide

end StorageSample

end ComplianceLoop
