import ComplianceLoop.Audit.WriteNode
import ComplianceLoop.Dpdp.ConsentManager

/-!
# The activation of a consent version

The flush writes the changed rows in the order of their primary keys, and the partial index is checked after each
UPDATE. When the row to be activated comes before the active one, two rows are active after the first UPDATE, and the
activation fails; otherwise exactly the requested row is active at the end (`activates_iff`).
-/

set_option autoImplicit false

namespace ComplianceLoop

open PyLib

/-- Exactly the row with this `version_id` is active. -/
def ExactlyActive (t : ConsentTable) (versionId : Text) : Prop :=
  (∃ v ∈ t.rows, v.versionId = versionId) ∧ ∀ v ∈ t.rows, v.isActive = true ↔ v.versionId = versionId

/-- The call returned, and exactly the requested row is active. -/
def Activates (r : Except PyExc Unit × ConsentTable) (versionId : Text) : Prop :=
  returned r.1 = true ∧ ExactlyActive r.2 versionId

/-! ## The partial index -/

section

variable {rows : List ConsentVersion} {t : ConsentTable} {u v : ConsentVersion}

/-- The index allows active rows of one id only. -/
theorem length_filter_isActive (hk : (rows.map ConsentVersion.id).Nodup) :
    (rows.filter ConsentVersion.isActive).length ≤ 1 ↔
      ∀ u ∈ rows, ∀ v ∈ rows, u.isActive = true → v.isActive = true → u.id = v.id := by
  have hsub : ((rows.filter ConsentVersion.isActive).map ConsentVersion.id).Nodup :=
    hk.sublist (List.filter_sublist.map _)
  have hmem : ∀ w, w ∈ rows.filter ConsentVersion.isActive ↔ w ∈ rows ∧ w.isActive = true := fun w => List.mem_filter
  rcases hf : rows.filter ConsentVersion.isActive with _ | ⟨a, _ | ⟨b, rest⟩⟩
  · rw [hf] at hmem
    refine iff_of_true (by simp) fun u hu v hv hau hav => ?_
    exact absurd ((hmem u).mpr ⟨hu, hau⟩) List.not_mem_nil
  · rw [hf] at hmem
    refine iff_of_true (by simp) fun u hu v hv hau hav => ?_
    rw [List.mem_singleton.mp ((hmem u).mpr ⟨hu, hau⟩), List.mem_singleton.mp ((hmem v).mpr ⟨hv, hav⟩)]
  · rw [hf] at hmem hsub
    refine iff_of_false (by simp) fun h => ?_
    obtain ⟨ha, haa⟩ := (hmem a).mp List.mem_cons_self
    obtain ⟨hb, hab⟩ := (hmem b).mp (List.mem_cons_of_mem a List.mem_cons_self)
    have hne : a.id ≠ b.id := by
      simp only [List.map_cons, List.nodup_cons, List.mem_cons, not_or] at hsub
      exact hsub.1.1
    exact hne (h a ha b hb haa hab)

theorem ConsentTable.eq_of_id (t : ConsentTable) (hu : u ∈ t.rows) (hv : v ∈ t.rows) (h : u.id = v.id) : u = v :=
  List.inj_on_of_nodup_map t.keyed hu hv h

theorem ConsentTable.eq_of_versionId (t : ConsentTable) (hu : u ∈ t.rows) (hv : v ∈ t.rows)
    (h : u.versionId = v.versionId) : u = v :=
  List.inj_on_of_nodup_map t.distinct hu hv h

theorem ConsentTable.eq_of_active (t : ConsentTable) (hu : u ∈ t.rows) (hv : v ∈ t.rows) (hau : u.isActive = true)
    (hav : v.isActive = true) : u = v :=
  t.eq_of_id hu hv ((length_filter_isActive t.keyed).mp t.oneActive u hu v hv hau hav)

/-- The only row of a list with some property is the one that is found. -/
theorem find?_eq_some_of_unique {p : ConsentVersion → Bool} (hv : v ∈ rows) (hp : p v = true)
    (h : ∀ u ∈ rows, p u = true → u = v) : rows.find? p = some v := by
  cases hf : rows.find? p with
  | none => exact absurd hp (List.find?_eq_none.mp hf v hv)
  | some u => rw [h u (List.mem_of_find?_eq_some hf) (List.find?_some hf)]

/-! ## One UPDATE -/

theorem map_id_overwrite (v : ConsentVersion) (rows : List ConsentVersion) :
    (rows.map v.overwrite).map ConsentVersion.id = rows.map ConsentVersion.id := by
  rw [List.map_map]
  exact List.map_congr_left fun r _ => id_overwrite v r

/-- An UPDATE after which the active rows have one id succeeds. -/
theorem ConsentTable.update_ok (t : ConsentTable) (v : ConsentVersion) (u : Uuid)
    (h : ∀ r ∈ t.rows, (v.overwrite r).isActive = true → r.id = u) :
    ∃ t', t.update v = .ok t' ∧ t'.rows = t.rows.map v.overwrite := by
  have hle : ((t.rows.map v.overwrite).filter ConsentVersion.isActive).length ≤ 1 := by
    rw [length_filter_isActive (by rw [map_id_overwrite]; exact t.keyed)]
    intro u hu w hw hau haw
    obtain ⟨r, hr, rfl⟩ := List.mem_map.mp hu
    obtain ⟨q, hq, rfl⟩ := List.mem_map.mp hw
    rw [id_overwrite, id_overwrite, h r hr hau, h q hq haw]
  rw [ConsentTable.update, dif_pos hle]
  exact ⟨_, rfl, rfl⟩

/-- An UPDATE after which two rows are active fails. -/
theorem ConsentTable.update_error {r q : ConsentVersion} (hr : r ∈ t.rows) (hq : q ∈ t.rows) (hne : r.id ≠ q.id)
    (har : (v.overwrite r).isActive = true) (haq : (v.overwrite q).isActive = true) :
    ∃ e, t.update v = .error e := by
  have hgt : ¬ ((t.rows.map v.overwrite).filter ConsentVersion.isActive).length ≤ 1 := by
    rw [length_filter_isActive (by rw [map_id_overwrite]; exact t.keyed)]
    intro h
    have := h _ (List.mem_map_of_mem hr) _ (List.mem_map_of_mem hq) har haq
    rw [id_overwrite, id_overwrite] at this
    exact hne this
  rw [ConsentTable.update, dif_neg hgt]
  exact ⟨_, rfl⟩

end

/-! ## The activation -/

section

variable {t : ConsentTable} {current requested : ConsentVersion}

/-- The changed objects when the requested row is not the active one. -/
theorem activatedObjects_of_ne (h : current.id ≠ requested.id) (supersededAt effectiveFrom : DateTime) :
    activatedObjects requested (some current) supersededAt effectiveFrom =
      [{ requested with isActive := true, effectiveFrom := effectiveFrom },
        { current with isActive := false, supersededAt := some supersededAt }] := by
  simp [activatedObjects, assign, h, h.symm]

/-- The one changed object when the requested row is active already. -/
theorem activatedObjects_self (supersededAt effectiveFrom : DateTime) :
    activatedObjects requested (some requested) supersededAt effectiveFrom =
      [{ requested with
        isActive := true
        effectiveFrom := effectiveFrom
        supersededAt := some supersededAt }] := by
  simp [activatedObjects, assign]

/-- What the activation does with the flush. -/
theorem activateConsentVersion_eq (hc : current ∈ t.rows) (ha : current.isActive = true) (hr : requested ∈ t.rows)
    (supersededAt effectiveFrom : DateTime) :
    activateConsentVersion requested.versionId supersededAt effectiveFrom t =
      match t.flush (activatedObjects requested (some current) supersededAt effectiveFrom) with
      | .ok t' => (.ok (), t')
      | .error e => (.error e, t) := by
  have hactive : getActiveConsentVersion t = some current :=
    find?_eq_some_of_unique hc ha fun u hu hau => t.eq_of_active hu hc hau ha
  have hrequested : t.rows.find? (fun v => v.versionId = requested.versionId) = some requested :=
    find?_eq_some_of_unique hr (decide_eq_true rfl) fun u hu h => t.eq_of_versionId hu hr (of_decide_eq_true h)
  cases hflush : t.flush (activatedObjects requested (some current) supersededAt effectiveFrom) <;>
    simp only [activateConsentVersion, hrequested, hactive, hflush]

/-- Two objects are flushed in the order of their primary keys. -/
theorem flush_pair (t : ConsentTable) (u v : ConsentVersion) :
    t.flush [u, v] =
      if u.id.int ≤ v.id.int then (t.update u).bind fun t' => t'.update v
      else (t.update v).bind fun t' => t'.update u := by
  by_cases h : u.id.int ≤ v.id.int
  · have hsort : [u, v].insertionSort (fun u v => u.id.int ≤ v.id.int) = [u, v] := by simp [h]
    rw [ConsentTable.flush, hsort, if_pos h]
    simp only [List.foldlM_cons, List.foldlM_nil, bind_pure]
    rfl
  · have hsort : [u, v].insertionSort (fun u v => u.id.int ≤ v.id.int) = [v, u] := by simp [h]
    rw [ConsentTable.flush, hsort, if_neg h]
    simp only [List.foldlM_cons, List.foldlM_nil, bind_pure]
    rfl

/-- Only the active row is active. -/
theorem ConsentTable.isActive_iff (t : ConsentTable) (hc : current ∈ t.rows) (ha : current.isActive = true)
    {r : ConsentVersion} (hr : r ∈ t.rows) : r.isActive = true ↔ r.id = current.id :=
  ⟨fun h => congrArg ConsentVersion.id (t.eq_of_active hr hc h ha), fun h => t.eq_of_id hr hc h ▸ ha⟩

/-- When the written row is the only active one afterwards, exactly its version is active. -/
theorem exactlyActive_of_rows {t' : ConsentTable} {v : ConsentVersion} (hrows : t'.rows = t.rows.map v.overwrite)
    (hr : requested ∈ t.rows) (hid : v.id = requested.id) (hv : v.isActive = true)
    (hother : ∀ r ∈ t.rows, r.isActive = true → r.id = requested.id) : ExactlyActive t' requested.versionId := by
  constructor
  · exact ⟨v.overwrite requested, hrows ▸ List.mem_map_of_mem hr, versionId_overwrite v requested⟩
  · intro u hu
    rw [hrows] at hu
    obtain ⟨r, hrmem, rfl⟩ := List.mem_map.mp hu
    rw [isActive_overwrite, versionId_overwrite, hid]
    constructor
    · intro h
      split at h
      · rename_i he
        rw [t.eq_of_id hrmem hr he]
      · rw [t.eq_of_id hrmem hr (hother r hrmem h)]
    · intro h
      rw [if_pos (congrArg ConsentVersion.id (t.eq_of_versionId hrmem hr h)), hv]

/-- Activating the active version again. -/
theorem activates_self (hr : requested ∈ t.rows) (ha : requested.isActive = true)
    (supersededAt effectiveFrom : DateTime) :
    Activates (activateConsentVersion requested.versionId supersededAt effectiveFrom t) requested.versionId := by
  rw [activateConsentVersion_eq hr ha hr, activatedObjects_self]
  have hone : ∀ r ∈ t.rows, r.isActive = true → r.id = requested.id := fun r hrmem => (t.isActive_iff hr ha hrmem).mp
  let activated : ConsentVersion := { requested with
    isActive := true
    effectiveFrom := effectiveFrom
    supersededAt := some supersededAt }
  have hactive : ∀ r ∈ t.rows, (activated.overwrite r).isActive = true → r.id = requested.id := by
    intro r hrmem h
    rw [isActive_overwrite] at h
    split at h
    · assumption
    · exact hone r hrmem h
  obtain ⟨t', ht', hrows⟩ := ConsentTable.update_ok t activated requested.id hactive
  have hflush : t.flush [_] = .ok t' := (bind_pure _).trans ht'
  rw [hflush]
  exact ⟨rfl, exactlyActive_of_rows hrows hr rfl rfl hone⟩

/-- The active row comes first: it is deactivated first. -/
theorem activates_of_lt (hc : current ∈ t.rows) (ha : current.isActive = true) (hr : requested ∈ t.rows)
    (hlt : current.id.int < requested.id.int) (supersededAt effectiveFrom : DateTime) :
    Activates (activateConsentVersion requested.versionId supersededAt effectiveFrom t) requested.versionId := by
  have hne : current.id ≠ requested.id := fun h => absurd hlt (by rw [h]; exact lt_irrefl _)
  rw [activateConsentVersion_eq hc ha hr, activatedObjects_of_ne hne, flush_pair, if_neg (not_le.mpr hlt)]
  have hone : ∀ r ∈ t.rows, r.isActive = true → r.id = current.id := fun r hrmem => (t.isActive_iff hc ha hrmem).mp
  let deactivated : ConsentVersion := { current with isActive := false, supersededAt := some supersededAt }
  have hdeactivated : ∀ r ∈ t.rows, (deactivated.overwrite r).isActive = true → r.id = current.id := by
    intro r hrmem h
    rw [isActive_overwrite] at h
    split at h
    · assumption
    · exact hone r hrmem h
  obtain ⟨t₁, ht₁, hrows₁⟩ := ConsentTable.update_ok t deactivated current.id hdeactivated
  have hnone : ∀ r ∈ t₁.rows, r.isActive = true → r.id = requested.id := by
    intro r hrmem h
    rw [hrows₁] at hrmem
    obtain ⟨q, hq, rfl⟩ := List.mem_map.mp hrmem
    rw [isActive_overwrite] at h
    split at h
    · cases h
    · rename_i hid
      exact absurd (hone q hq h) hid
  let activated : ConsentVersion := { requested with isActive := true, effectiveFrom := effectiveFrom }
  have hactivated : ∀ r ∈ t₁.rows, (activated.overwrite r).isActive = true → r.id = requested.id := by
    intro r hrmem h
    rw [isActive_overwrite] at h
    split at h
    · assumption
    · exact hnone r hrmem h
  obtain ⟨t₂, ht₂, hrows₂⟩ := ConsentTable.update_ok t₁ activated requested.id hactivated
  have hmem : requested ∈ t₁.rows := by
    rw [hrows₁]
    refine List.mem_map.mpr ⟨requested, hr, ?_⟩
    exact if_neg hne.symm
  rw [ht₁, ok_bind, ht₂]
  exact ⟨rfl, exactlyActive_of_rows hrows₂ hmem rfl rfl hnone⟩

/-- The requested row comes first: with it two rows are active. -/
theorem not_activates_of_gt (hc : current ∈ t.rows) (ha : current.isActive = true) (hr : requested ∈ t.rows)
    (hgt : requested.id.int < current.id.int) (supersededAt effectiveFrom : DateTime) :
    ¬ Activates (activateConsentVersion requested.versionId supersededAt effectiveFrom t) requested.versionId := by
  have hne : current.id ≠ requested.id := fun h => absurd hgt (by rw [h]; exact lt_irrefl _)
  rw [activateConsentVersion_eq hc ha hr, activatedObjects_of_ne hne, flush_pair, if_pos hgt.le]
  obtain ⟨e, he⟩ := ConsentTable.update_error (t := t)
    (v := { requested with isActive := true, effectiveFrom := effectiveFrom }) hc hr hne
    (by rw [isActive_overwrite, if_neg hne, ha]) (by rw [isActive_overwrite, if_pos rfl])
  rw [he, error_bind]
  rintro ⟨h, -⟩
  cases h

/-- **On a table with exactly one active row, the activation of an existing version commits and leaves exactly that
version active if and only if the active row's primary key is not greater than the requested row's.** -/
theorem activates_iff (hc : current ∈ t.rows) (ha : current.isActive = true) (hr : requested ∈ t.rows)
    (supersededAt effectiveFrom : DateTime) :
    Activates (activateConsentVersion requested.versionId supersededAt effectiveFrom t) requested.versionId ↔
      current.id.int ≤ requested.id.int := by
  constructor
  · intro h
    by_contra hle
    exact not_activates_of_gt hc ha hr (not_le.mp hle) supersededAt effectiveFrom h
  · intro hle
    rcases lt_or_eq_of_le hle with hlt | heq
    · exact activates_of_lt hc ha hr hlt supersededAt effectiveFrom
    · obtain rfl : current = requested := t.eq_of_id hc hr (congrArg Uuid.mk heq)
      exact activates_self hr ha supersededAt effectiveFrom

end

namespace ConsentSample

/-- A version with this primary key; they are named after it. -/
def version (n : Nat) (isActive : Bool) : ConsentVersion where
  id := Sample.uuid n
  versionId := 'v' :: Nat.toDigits 10 n
  isActive := isActive
  effectiveFrom := Sample.now
  supersededAt := none

/-- Three versions, of which the second is active. -/
def table : ConsentTable where
  rows := [version 1 false, version 2 true, version 3 false]
  keyed := by decide
  distinct := by decide
  oneActive := by decide

end ConsentSample

/-- The third version is activated after the second. -/
theorem activates_iff_third :
    Activates
      (activateConsentVersion (ConsentSample.version 3 false).versionId Sample.now Sample.now ConsentSample.table)
        (ConsentSample.version 3 false).versionId ↔
      (ConsentSample.version 2 true).id.int ≤ (ConsentSample.version 3 false).id.int :=
  activates_iff (t := ConsentSample.table) (by decide) rfl (by decide) Sample.now Sample.now

/-- The first version is not. -/
theorem earlier_key_not_activated :
    ¬ ∀ (t : ConsentTable) (current requested : ConsentVersion) (supersededAt effectiveFrom : DateTime),
      current ∈ t.rows → current.isActive = true → requested ∈ t.rows →
        Activates (activateConsentVersion requested.versionId supersededAt effectiveFrom t) requested.versionId := by
  intro h
  obtain ⟨hreturned, -⟩ := h ConsentSample.table (ConsentSample.version 2 true) (ConsentSample.version 1 false)
    Sample.now Sample.now (by decide) rfl (by decide)
  have hraises : returned (activateConsentVersion (ConsentSample.version 1 false).versionId Sample.now Sample.now
      ConsentSample.table).1 = false := by
    decide
  rw [hraises] at hreturned
  cases hreturned

end ComplianceLoop
