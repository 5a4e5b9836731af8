import ComplianceLoop.Dpdp.ConsentWithdrawal
import ComplianceLoop.Dpdp.SupersessionDates

/-!
# Consent versions that have been replaced

The flush of an activation lets a version come after the active one only where its primary key does
(`activate_cases`). Over whole runs this is a one-way street: the key of the active version never decreases, so a
version that has been replaced cannot be activated again, and no submission that names it is accepted any more
(`superseded_refused`), although `activate_consent_version` has no rule against either.
-/

set_option autoImplicit false

namespace ComplianceLoop

open PyLib Transition

/-- The row with the id and the `version_id` of `v` is still there, and the active one has a greater primary key. -/
def Replaced (v : ConsentVersion) (t : ConsentTable) : Prop :=
  (∃ r ∈ t.rows, r.id = v.id ∧ r.versionId = v.versionId) ∧ ∃ u ∈ t.rows, u.isActive = true ∧ v.id.int < u.id.int

section

variable {t t' : ConsentTable} {v u current requested : ConsentVersion}

theorem getActiveConsentVersion_eq_some_iff :
    getActiveConsentVersion t = some v ↔ v ∈ t.rows ∧ v.isActive = true := by
  constructor
  · intro h
    exact ⟨List.mem_of_find?_eq_some h, List.find?_some h⟩
  · rintro ⟨hv, ha⟩
    exact find?_eq_some_of_unique hv ha fun u hu hau => t.eq_of_active hu hv hau ha

theorem ConsentTable.insert_eq_some (h : t.insert v = some t') : t'.rows = t.rows ++ [v] := by
  unfold ConsentTable.insert at h
  split at h
  · exact (Option.some.inj h) ▸ rfl
  · cases h

/-- After a hand-over exactly the requested version is active. -/
theorem exactlyActive_of_handOver (hc : current ∈ t.rows) (ha : current.isActive = true) (hr : requested ∈ t.rows)
    {supersededAt effectiveFrom : DateTime}
    (hrows : t'.rows = t.rows.map (ConsentVersion.handOver current.id requested.id supersededAt effectiveFrom)) :
    ExactlyActive t' requested.versionId := by
  constructor
  · exact ⟨requested.handOver current.id requested.id supersededAt effectiveFrom,
      hrows ▸ List.mem_map_of_mem hr, rfl⟩
  · intro v hv
    rw [hrows] at hv
    obtain ⟨r, hrmem, rfl⟩ := List.mem_map.mp hv
    simp only [ConsentVersion.handOver]
    constructor
    · intro h
      split at h
      · rename_i hid
        rw [t.eq_of_id hrmem hr hid]
      · split at h
        · cases h
        · rename_i hid
          exact absurd ((t.isActive_iff hc ha hrmem).mp h) hid
    · intro h
      rw [if_pos (congrArg ConsentVersion.id (t.eq_of_versionId hrmem hr h))]

/-- **What a call does to the table**: nothing, or it hands over to a version whose primary key is not smaller. -/
theorem activate_cases (hc : current ∈ t.rows) (ha : current.isActive = true) (versionId : Text)
    (supersededAt effectiveFrom : DateTime) :
    (returned (activateConsentVersion versionId supersededAt effectiveFrom t).1 = false ∧
        (activateConsentVersion versionId supersededAt effectiveFrom t).2 = t) ∨
      ∃ requested ∈ t.rows, requested.versionId = versionId ∧ current.id.int ≤ requested.id.int ∧
        (activateConsentVersion versionId supersededAt effectiveFrom t).2.rows =
          t.rows.map (ConsentVersion.handOver current.id requested.id supersededAt effectiveFrom) := by
  obtain ⟨result, t', h⟩ : ∃ result t', activateConsentVersion versionId supersededAt effectiveFrom t = (result, t') :=
    ⟨_, _, rfl⟩
  rw [h]
  cases result with
  | error e =>
    left
    refine ⟨rfl, ?_⟩
    unfold activateConsentVersion at h
    split at h
    · exact (Prod.mk.inj h).2.symm
    · split at h
      · cases (Prod.mk.inj h).1
      · exact (Prod.mk.inj h).2.symm
  | ok _ =>
    right
    obtain ⟨requested, hr, rfl, hrows⟩ := activateConsentVersion_ok hc ha h
    refine ⟨requested, hr, rfl, ?_, hrows⟩
    by_contra hlt
    refine not_activates_of_gt hc ha hr (not_le.mp hlt) supersededAt effectiveFrom ?_
    rw [h]
    exact ⟨rfl, exactlyActive_of_handOver hc ha hr hrows⟩

/-- What a step keeps, and what it does to the active version. -/
theorem consentSystem_step {h h' : ConsentHistory} {l : ConsentStep} (hc : current ∈ h.versions.rows)
    (ha : current.isActive = true) (hs : consentSystem.step h l = some h') :
    (∀ r ∈ h.versions.rows, ∃ r' ∈ h'.versions.rows, r'.id = r.id ∧ r'.versionId = r.versionId) ∧
      ∃ u ∈ h'.versions.rows, u.isActive = true ∧ current.id.int ≤ u.id.int := by
  have hsame : h'.versions = h.versions →
      (∀ r ∈ h.versions.rows, ∃ r' ∈ h'.versions.rows, r'.id = r.id ∧ r'.versionId = r.versionId) ∧
        ∃ u ∈ h'.versions.rows, u.isActive = true ∧ current.id.int ≤ u.id.int := by
    intro heq
    rw [heq]
    exact ⟨fun r hr => ⟨r, hr, rfl, rfl⟩, current, hc, ha, le_refl _⟩
  have hs : h.step l = some h' := hs
  cases l with
  | tick now =>
    simp only [ConsentHistory.step] at hs
    split at hs
    · cases hs
      exact hsame rfl
    · cases hs
  | store rows =>
    cases hs
    exact hsame rfl
  | publish v =>
    obtain ⟨versions, hinsert, rfl⟩ := Option.map_eq_some_iff.mp hs
    dsimp only
    rw [ConsentTable.insert_eq_some hinsert]
    exact ⟨fun r hr => ⟨r, List.mem_append_left _ hr, rfl, rfl⟩, current, List.mem_append_left _ hc, ha, le_refl _⟩
  | activate versionId =>
    cases hs
    rcases activate_cases hc ha versionId h.clock h.clock with ⟨-, heq⟩ | ⟨requested, hr, -, hle, hrows⟩
    · exact hsame heq
    · dsimp only
      rw [hrows]
      refine ⟨fun r hrmem => ⟨_, List.mem_map_of_mem hrmem, rfl, rfl⟩, ⟨_, List.mem_map_of_mem hr, ?_, hle⟩⟩
      exact if_pos rfl
  | configure environ =>
    cases hs
    exact hsame rfl
  | withdraw applicantId requestingPanHmac =>
    simp only [ConsentHistory.step] at hs
    split at hs <;> cases hs
    all_goals exact hsame rfl

/-- A replaced version stays replaced. -/
theorem Replaced.step {h h' : ConsentHistory} {l : ConsentStep} (hv : Replaced v h.versions)
    (hs : consentSystem.step h l = some h') : Replaced v h'.versions := by
  obtain ⟨⟨r, hr, hid, hversion⟩, u, hu, hau, hlt⟩ := hv
  obtain ⟨hkept, u', hu', hau', hle⟩ := consentSystem_step hu hau hs
  obtain ⟨r', hr', hid', hversion'⟩ := hkept r hr
  exact ⟨⟨r', hr', hid'.trans hid, hversion'.trans hversion⟩, u', hu', hau', lt_of_lt_of_le hlt hle⟩

/-- Over a run the key of the active version does not decrease, and the rows keep their ids and names. -/
theorem consentSystem_run {h h' : ConsentHistory} {ls : List ConsentStep} (hc : current ∈ h.versions.rows)
    (ha : current.isActive = true) (hrun : consentSystem.run h ls = some h') :
    (∃ r ∈ h'.versions.rows, r.id = current.id ∧ r.versionId = current.versionId) ∧
      ∃ u ∈ h'.versions.rows, u.isActive = true ∧ current.id.int ≤ u.id.int := by
  let I : ConsentHistory → Prop := fun s =>
    (∃ r ∈ s.versions.rows, r.id = current.id ∧ r.versionId = current.versionId) ∧
      ∃ u ∈ s.versions.rows, u.isActive = true ∧ current.id.int ≤ u.id.int
  refine System.invariant_run (I := I) ?_ ⟨⟨current, hc, rfl, rfl⟩, current, hc, ha, le_refl _⟩ hrun
  rintro s l s' ⟨⟨r, hr, hid, hversion⟩, u, hu, hau, hle⟩ hstep
  obtain ⟨hkept, u', hu', hau', hle'⟩ := consentSystem_step hu hau hstep
  obtain ⟨r', hr', hid', hversion'⟩ := hkept r hr
  exact ⟨⟨r', hr', hid'.trans hid, hversion'.trans hversion⟩, u', hu', hau', hle.trans hle'⟩

/-- The check refuses a replaced version. -/
theorem Replaced.not_accepts {D : Type} (h : Replaced v t) {c : ConsentContext} {claim : ConsentClaim D}
    (hc : c.versions = t) (hv : claim.consentVersion = v.versionId) : ¬ Accepts (validateConsent c claim) := by
  intro haccepts
  obtain ⟨_, _, _, active, -, -, -, -, -, -, hactive, hversion⟩ := validateConsent_accepts_iff.mp haccepts
  obtain ⟨⟨r, hr, hid, hrv⟩, u, hu, hau, hlt⟩ := h
  rw [hc, getActiveConsentVersion_eq_some_iff.mpr ⟨hu, hau⟩] at hactive
  obtain rfl := Option.some.inj hactive
  have hsame : r = u := t.eq_of_versionId hr hu (hrv.trans (hv.symm.trans hversion))
  rw [← hid, hsame] at hlt
  omega

/-- A replaced version cannot be activated. -/
theorem Replaced.raises (h : Replaced v t) (supersededAt effectiveFrom : DateTime) :
    returned (activateConsentVersion v.versionId supersededAt effectiveFrom t).1 = false ∧
      (activateConsentVersion v.versionId supersededAt effectiveFrom t).2 = t := by
  obtain ⟨⟨r, hr, hid, hversion⟩, u, hu, hau, hlt⟩ := h
  rcases activate_cases hu hau v.versionId supersededAt effectiveFrom with h | ⟨requested, hreq, hname, hle, -⟩
  · exact h
  · have hsame : r = requested := t.eq_of_versionId hr hreq (hversion.trans hname.symm)
    rw [← hid, hsame] at hlt
    omega

/-- **A consent version that has been replaced is never current again**: in every later state of every history a version
with a greater primary key is active, every submission that names the replaced one is refused, and every call that
would activate it raises and leaves the table as it is. -/
theorem superseded_refused {D : Type} {h h' h'' : ConsentHistory} {v w : ConsentVersion} {ls ls' : List ConsentStep}
    (hv : getActiveConsentVersion h.versions = some v) (hrun : consentSystem.run h ls = some h')
    (hw : getActiveConsentVersion h'.versions = some w) (hne : w.id ≠ v.id)
    (hrun' : consentSystem.run h' ls' = some h'') (validityHours : Int) (ageText : Int → Text) :
    (∃ u, getActiveConsentVersion h''.versions = some u ∧ v.id.int < u.id.int) ∧
      (∀ claim : ConsentClaim D, claim.consentVersion = v.versionId →
        ¬ Accepts (validateConsent (h''.context validityHours ageText) claim)) ∧
      ∀ supersededAt effectiveFrom,
        returned (activateConsentVersion v.versionId supersededAt effectiveFrom h''.versions).1 = false ∧
          (activateConsentVersion v.versionId supersededAt effectiveFrom h''.versions).2 = h''.versions := by
  obtain ⟨hvmem, hva⟩ := getActiveConsentVersion_eq_some_iff.mp hv
  obtain ⟨hwmem, hwa⟩ := getActiveConsentVersion_eq_some_iff.mp hw
  have hreplaced : Replaced v h'.versions := by
    obtain ⟨hrow, u, hu, hau, hle⟩ := consentSystem_run hvmem hva hrun
    obtain rfl := h'.versions.eq_of_active hu hwmem hau hwa
    refine ⟨hrow, u, hu, hau, lt_of_le_of_ne hle fun heq => hne ?_⟩
    exact congrArg Uuid.mk heq.symm
  have hkept : Replaced v h''.versions :=
    System.invariant_run (I := fun s => Replaced v s.versions) Replaced.step hreplaced hrun'
  refine ⟨?_, fun claim hclaim => hkept.not_accepts rfl hclaim, hkept.raises⟩
  obtain ⟨-, u, hu, hau, hlt⟩ := hkept
  exact ⟨u, getActiveConsentVersion_eq_some_iff.mpr ⟨hu, hau⟩, hlt⟩

end

/-- The third version has replaced the second, and the second is to be activated again. -/
theorem superseded_refused_second :
    ∃ t, (∃ u, getActiveConsentVersion t = some u ∧ (ConsentSample.version 2 true).id.int < u.id.int) ∧
      ∀ supersededAt effectiveFrom,
        returned (activateConsentVersion (ConsentSample.version 2 true).versionId supersededAt effectiveFrom t).1 =
          false := by
  let activate (n : Nat) : ConsentStep := .activate (ConsentSample.version n false).versionId
  obtain ⟨hactive, -, hraises⟩ := @superseded_refused Unit ConsentSample.history _ _ (ConsentSample.version 2 true)
    { ConsentSample.version 3 true with effectiveFrom := WipeSample.midnight 0 } [activate 3] [activate 2] (by decide)
    rfl (by decide) (by decide) rfl 24 fun _ => []
  exact ⟨_, hactive, fun supersededAt effectiveFrom => (hraises supersededAt effectiveFrom).1⟩

end ComplianceLoop
