import ComplianceLoop.Dpdp.Storage

/-!
# Storage limitation in the bucket

A wipe clears the row of an application and leaves the bucket alone, and an upload does not ask whether its application
was wiped in the meantime; nothing calls `wipe_minio_payloads`. So no payload of a wiped application is in the bucket
exactly in the runs in which every wipe that commits finds none there and every put is for an application that is not
wiped (`noWipedPayload_iff`).
-/

set_option autoImplicit false

namespace ComplianceLoop

open PyLib Transition

variable {D : Type}

/-- The object under the key holds a payload of the application. -/
def Storage.Holds (s : Storage D) (k : PyStr) (u : Uuid) : Prop :=
  ∃ args, (k, args) ∈ s.contents ∧ uuidOf args.applicationId = .ok u

/-- No object in the bucket holds a payload of a wiped application. -/
def NoWipedPayload (s : Storage D) : Prop := ∀ o ∈ s.world.objects, ∀ u, s.Holds o.1 u → ¬ s.wipes.db.Wiped u

/-- A put is for an application that is not wiped, and a wipe that commits finds no payload in the bucket. -/
def Limited [FloatOps D] (C : Crypto) (keys : Keys) (s : Storage D) : StorageStep D → Prop
  | .put p nonce attempt => attempt ≠ .refused → ∀ args, s.uploads p = some ⟨args, false⟩ →
    returned (encryptedPayload C keys nonce args) = true →
      ∀ u, uuidOf args.applicationId = .ok u → ¬ s.wipes.db.Wiped u
  | .wipe (.commit t) => ∀ tx, s.wipes.txns t = some tx → ∀ a ∈ s.wipes.db.applications, a.id ∈ tx.wipedIds →
    ∀ o ∈ s.world.objects, ¬ s.Holds o.1 a.id
  | _ => True

theorem mem_setItem_self {α β : Type} [DecidableEq α] (k : α) (v : β) (xs : List (α × β)) : (k, v) ∈ setItem k v xs :=
  getItem_mem (getItem_setItem k v xs)

section

variable [FloatOps D] {C : Crypto} {keys : Keys} {s s' : Storage D}

omit [FloatOps D] in
theorem NoWipedPayload.congr (hp : NoWipedPayload s) (ho : s'.world.objects = s.world.objects)
    (hc : s'.contents = s.contents) (hd : s'.wipes.db = s.wipes.db) : NoWipedPayload s' := by
  simp only [NoWipedPayload, Storage.Holds, ho, hc, hd]
  exact hp

/-- A put keeps the limit exactly when its application is not wiped. -/
theorem noWipedPayload_put (hm : Mirrors C keys s) (hp : NoWipedPayload s) {args : UploadArgs D} {e : Bytes}
    (ho : s'.world.objects = setItem args.s3Key e s.world.objects)
    (hc : s'.contents = setItem args.s3Key args s.contents) (hd : s'.wipes = s.wipes) :
    NoWipedPayload s' ↔ ∀ u, uuidOf args.applicationId = .ok u → ¬ s.wipes.db.Wiped u := by
  simp only [NoWipedPayload, Storage.Holds, ho, hc, hd]
  constructor
  · intro h u hu
    exact h _ (mem_setItem_self args.s3Key e _) u ⟨args, mem_setItem_self args.s3Key args _, hu⟩
  · rintro h o - u ⟨a, ha, hu⟩
    rcases mem_setItem ha with heq | ha
    · obtain ⟨-, rfl⟩ := Prod.mk.inj heq
      exact h u hu
    · have hk : o.1 ∈ s.world.objects.map Prod.fst := hm.map_fst ▸ List.mem_map_of_mem ha
      obtain ⟨o', ho', hk⟩ := List.mem_map.mp hk
      exact hp o' ho' u ⟨a, hk ▸ ha, hu⟩

omit [FloatOps D] in
/-- A commit keeps the limit exactly when the bucket holds no payload of the applications that it wipes. -/
theorem noWipedPayload_commit (hp : NoWipedPayload s) {tx : WipeTxn} (hw : s'.world = s.world)
    (hc : s'.contents = s.contents) (hd : s'.wipes.db = tx.apply s.wipes.db) :
    NoWipedPayload s' ↔
      ∀ a ∈ s.wipes.db.applications, a.id ∈ tx.wipedIds → ∀ o ∈ s.world.objects, ¬ s.Holds o.1 a.id := by
  have hh : ∀ k u, s'.Holds k u ↔ s.Holds k u := by
    intro k u
    rw [Storage.Holds, hc]
    rfl
  rw [NoWipedPayload, hw]
  simp only [hh, hd, wiped_apply_iff]
  constructor
  · intro h a ha hid o ho hhold
    exact h o ho a.id hhold (.inr ⟨a, ha, rfl, hid⟩)
  · rintro h o ho u hhold (hwiped | ⟨a, ha, rfl, hid⟩)
    · exact hp o ho u hhold hwiped
    · exact h a ha hid o ho hhold

/-- **One step keeps the bucket free of payloads of wiped applications exactly when it is no put for a wiped
application and no commit of a wipe of an application with a payload in the bucket.** -/
theorem noWipedPayload_step {l : StorageStep D} (hm : Mirrors C keys s) (hp : NoWipedPayload s)
    (h : (storageSystem D C keys).step s l = some s') :
    Mirrors C keys s' ∧ (NoWipedPayload s' ↔ Limited C keys s l) := by
  refine ⟨hm.step h, ?_⟩
  have hsame : s.Same s' → NoWipedPayload s' := fun hs =>
    hp.congr (congrArg World.objects hs.world) hs.contents (congrArg WipeState.db hs.wipes)
  cases l with
  | retrySelect p order => exact iff_of_true (hsame (same_of_isQuiet rfl h)) trivial
  | retryNext p => exact iff_of_true (hsame (same_of_isQuiet rfl h)) trivial
  | removeSelect p ids => exact iff_of_true (hsame (same_of_isQuiet rfl h)) trivial
  | crash p => exact iff_of_true (hsame (same_of_isQuiet rfl h)) trivial
  | write p env state =>
    obtain ⟨hw, hd, hc⟩ := step_write h
    exact iff_of_true (hp.congr (by rw [hw]) hc (by rw [hd])) trivial
  | mark p attempt =>
    obtain ⟨args, -, hw, hd, hc⟩ := step_mark h
    exact iff_of_true (hp.congr (by rw [hw]) hc (by rw [hd])) trivial
  | put p nonce attempt =>
    obtain ⟨args, hu, ⟨hno, hs⟩ | ⟨e, ha, he, hw, hd, hc⟩⟩ := step_put h
    · refine iff_of_true (hsame hs) fun ha args' hu' henc => ?_
      obtain ⟨rfl, -⟩ := Upload.mk.inj (Option.some.inj (hu.symm.trans hu'))
      rcases hno with hno | hno
      · exact absurd hno ha
      · rw [hno] at henc
        cases henc
    · refine (noWipedPayload_put hm hp (by rw [hw]) hc hd).trans ?_
      constructor
      · rintro hg - args' hu' -
        obtain ⟨rfl, -⟩ := Upload.mk.inj (Option.some.inj (hu.symm.trans hu'))
        exact hg
      · exact fun hg => hg ha args hu (by rw [he]; rfl)
  | remove p attempt =>
    obtain ⟨r, k, ks, -, -, ⟨-, hs⟩ | ⟨-, hw, hd, hc⟩⟩ := step_remove h
    · exact iff_of_true (hsame hs) trivial
    · refine iff_of_true ?_ trivial
      simp only [NoWipedPayload, Storage.Holds, hw, hc, hd]
      rintro o ho u ⟨args, ha, hu⟩
      exact hp o (List.mem_filter.mp ho).1 u ⟨args, (List.mem_filter.mp ha).1, hu⟩
  | wipe l =>
    obtain ⟨hstep, hw, hc⟩ := step_wipe h
    rcases wipeStep_db hstep with ⟨t, tx, rfl, htx, hd⟩ | ⟨hne, hd⟩
    · refine (noWipedPayload_commit hp hw hc hd).trans ?_
      constructor
      · intro hg tx' htx'
        obtain rfl := Option.some.inj (htx.symm.trans htx')
        exact hg
      · exact fun hg => hg tx htx
    · refine iff_of_true (hp.congr (congrArg World.objects hw) hc hd) ?_
      cases l with
      | commit t => exact absurd rfl (hne t)
      | selectForUpdate t task k rows => trivial
      | select t req => trivial
      | update t id => trivial
      | rollback t => trivial

/-- **In a run of the tasks the bucket holds no payload of a wiped application all the time if and only if every wipe
that commits finds no payload of its applications there and every put is for an application that is not wiped.** -/
theorem noWipedPayload_iff (hm : Mirrors C keys s) (hp : NoWipedPayload s) (ls : List (StorageStep D)) :
    (storageSystem D C keys).Always NoWipedPayload s ls ↔ (storageSystem D C keys).Each (Limited C keys) s ls :=
  System.always_iff_each (fun hm hp h => noWipedPayload_step hm hp h) hm hp

end

namespace StorageSample

theorem mirrors : Mirrors Sample.crypto Sample.keys start := .nil

/-- The record is uploaded, and then its application is erased on request. -/
def eraseAfterUpload : List (StorageStep WholeFloat) :=
  upload ++ [.wipe (.select 0 WipeSample.request), .wipe (.update 0 ⟨1⟩), .wipe (.commit 0)]

end StorageSample

/-- That run. -/
theorem noWipedPayload_iff_eraseAfterUpload :
    (storageSystem WholeFloat Sample.crypto Sample.keys).Always NoWipedPayload StorageSample.start
        StorageSample.eraseAfterUpload ↔
      (storageSystem WholeFloat Sample.crypto Sample.keys).Each (Limited Sample.crypto Sample.keys) StorageSample.start
        StorageSample.eraseAfterUpload :=
  noWipedPayload_iff StorageSample.mirrors (fun _ ho => absurd ho List.not_mem_nil) StorageSample.eraseAfterUpload

/-- After that run the bucket still holds the payload. -/
theorem erased_payload_remains :
    ¬ ∀ (s s' : Storage WholeFloat) (ls : List (StorageStep WholeFloat)), s.world.objects = [] → s.contents = [] →
      (storageSystem WholeFloat Sample.crypto Sample.keys).run s ls = some s' → NoWipedPayload s' := by
  intro h
  have hrun : ((storageSystem WholeFloat Sample.crypto Sample.keys).run StorageSample.start
      StorageSample.eraseAfterUpload).map (fun s => (s.contents.map fun c => (c.1, uuidOf c.2.applicationId),
        (s.wipes.db.applications.map fun a => (a.id, a.retentionWiped), s.world.objects.map Prod.fst))) =
      some ([(computePayloadS3Key (pyStr (Sample.uuid 1).str) Sample.now, .ok ⟨1⟩)], ([(⟨1⟩, true)],
        [computePayloadS3Key (pyStr (Sample.uuid 1).str) Sample.now])) := by
    decide
  obtain ⟨s, hs, heq⟩ := Option.map_eq_some_iff.mp hrun
  obtain ⟨hcontents, heq⟩ := Prod.mk.inj heq
  obtain ⟨hrows, hobjects⟩ := Prod.mk.inj heq
  obtain ⟨c, hc, hceq⟩ := List.mem_map.mp (hcontents ▸ List.mem_singleton_self _)
  obtain ⟨a, ha, haeq⟩ := List.mem_map.mp (hrows ▸ List.mem_singleton_self _)
  obtain ⟨o, ho, hoeq⟩ := List.mem_map.mp (hobjects ▸ List.mem_singleton_self _)
  obtain ⟨hkey, happ⟩ := Prod.mk.inj hceq
  obtain ⟨hid, hw⟩ := Prod.mk.inj haeq
  refine h _ s _ rfl rfl hs o ho ⟨1⟩ ⟨c.2, ?_, happ⟩ ⟨a, ha, hid, hw⟩
  rw [hoeq, ← hkey]
  exact hc

end ComplianceLoop
