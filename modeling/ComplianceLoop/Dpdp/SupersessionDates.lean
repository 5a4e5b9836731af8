import ComplianceLoop.Dpdp.ConsentActivation
import ComplianceLoop.Transition.Runs

/-!
# The dates of the consent versions

A successful activation sets the flag and `effective_from` of the requested row, and clears the flag and sets
`superseded_at` of the active one (`activateConsentVersion_ok`); it resets nothing, and the two rows may be one. So the
dates match the flags throughout a sequence of activations exactly when each hands over to another version that has
never been superseded, and not before the active one has come into effect (`datesMatch_iff`).
-/

set_option autoImplicit false

namespace ComplianceLoop

open PyLib Transition

/-- The arguments of a call, and what the clock says when the two dates are taken. -/
structure Activation where
  versionId : Text
  supersededAt : DateTime
  effectiveFrom : DateTime

/-- The table, and the rows that have been active before. -/
structure VersionHistory where
  table : ConsentTable
  formerly : List Uuid

/-- The rows that are active. -/
def ConsentTable.activeIds (t : ConsentTable) : List Uuid :=
  (t.rows.filter ConsentVersion.isActive).map ConsentVersion.id

/-- One successful call after the other. -/
def activationSystem : System VersionHistory Activation where
  step s a :=
    match activateConsentVersion a.versionId a.supersededAt a.effectiveFrom s.table with
    | (.ok (), t) => some ⟨t, s.formerly ++ s.table.activeIds⟩
    | (.error _, _) => none

/-- The active version is not superseded; one that was active before and is not active now is, at or after the time it
came into effect. -/
def DatesMatch (s : VersionHistory) : Prop :=
  (∀ v ∈ s.table.rows, v.isActive = true → v.supersededAt = none) ∧
    ∀ v ∈ s.table.rows, v.id ∈ s.formerly → v.isActive = false →
      ∃ d ∈ v.supersededAt, v.effectiveFrom.instant ≤ d.instant

/-- The requested version is not the active one and was never superseded, and the active one has come into effect. -/
def HandsOver (s : VersionHistory) (a : Activation) : Prop :=
  (∀ v ∈ s.table.rows, v.versionId = a.versionId → v.isActive = false ∧ v.supersededAt = none) ∧
    ∀ v ∈ s.table.rows, v.isActive = true → v.effectiveFrom.instant ≤ a.supersededAt.instant

/-- What a successful activation makes of a row. -/
def ConsentVersion.handOver (currentId requestedId : Uuid) (supersededAt effectiveFrom : DateTime)
    (r : ConsentVersion) : ConsentVersion :=
  { r with
    isActive := if r.id = requestedId then true else if r.id = currentId then false else r.isActive
    effectiveFrom := if r.id = requestedId then effectiveFrom else r.effectiveFrom
    supersededAt := if r.id = currentId then some supersededAt else r.supersededAt }

/-! ## One activation -/

section

variable {t t' : ConsentTable} {current requested v : ConsentVersion}

theorem ConsentTable.update_eq_ok (h : t.update v = .ok t') : t'.rows = t.rows.map v.overwrite := by
  unfold ConsentTable.update at h
  split at h
  · exact (Except.ok.inj h) ▸ rfl
  · cases h

/-- The two updates of a flush, on one row. -/
theorem overwrite_overwrite (hc : current ∈ t.rows) (hr : requested ∈ t.rows) (hne : current.id ≠ requested.id)
    (supersededAt effectiveFrom : DateTime) {r : ConsentVersion} (h : r ∈ t.rows) :
    ConsentVersion.overwrite { requested with isActive := true, effectiveFrom := effectiveFrom }
        (ConsentVersion.overwrite { current with isActive := false, supersededAt := some supersededAt } r) =
      r.handOver current.id requested.id supersededAt effectiveFrom := by
  by_cases hrr : r.id = requested.id
  · obtain rfl := t.eq_of_id h hr hrr
    simp [ConsentVersion.overwrite, ConsentVersion.handOver, hne.symm]
  · by_cases hrc : r.id = current.id
    · obtain rfl := t.eq_of_id h hc hrc
      simp [ConsentVersion.overwrite, ConsentVersion.handOver, hne]
    · simp [ConsentVersion.overwrite, ConsentVersion.handOver, hrr, hrc]

/-- **What a successful activation does to the rows.** -/
theorem activateConsentVersion_ok {versionId : Text} {supersededAt effectiveFrom : DateTime} (hc : current ∈ t.rows)
    (ha : current.isActive = true)
    (h : activateConsentVersion versionId supersededAt effectiveFrom t = (.ok (), t')) :
    ∃ requested ∈ t.rows, requested.versionId = versionId ∧
      t'.rows = t.rows.map (ConsentVersion.handOver current.id requested.id supersededAt effectiveFrom) := by
  cases hf : t.rows.find? fun v => v.versionId = versionId with
  | none =>
    rw [activateConsentVersion, hf] at h
    cases (Prod.mk.inj h).1
  | some requested =>
    have hr : requested ∈ t.rows := List.mem_of_find?_eq_some hf
    have hversion := List.find?_some hf
    obtain rfl : requested.versionId = versionId := of_decide_eq_true hversion
    refine ⟨requested, hr, rfl, ?_⟩
    rw [activateConsentVersion_eq hc ha hr] at h
    cases hflush : t.flush (activatedObjects requested (some current) supersededAt effectiveFrom) with
    | error e =>
      rw [hflush] at h
      cases (Prod.mk.inj h).1
    | ok u =>
      rw [hflush] at h
      obtain rfl := (Prod.mk.inj h).2
      by_cases hid : current.id = requested.id
      · obtain rfl := t.eq_of_id hc hr hid
        rw [activatedObjects_self] at hflush
        rw [ConsentTable.update_eq_ok ((bind_pure _).symm.trans hflush)]
        refine List.map_congr_left fun r hrmem => ?_
        by_cases hrc : r.id = current.id
        · obtain rfl := t.eq_of_id hrmem hc hrc
          simp [ConsentVersion.overwrite, ConsentVersion.handOver]
        · simp [ConsentVersion.overwrite, ConsentVersion.handOver, hrc]
      · rw [activatedObjects_of_ne hid, flush_pair] at hflush
        split at hflush
        · -- with the requested row two rows are active after the first update
          obtain ⟨e, he⟩ := ConsentTable.update_error (t := t)
            (v := { requested with isActive := true, effectiveFrom := effectiveFrom }) hc hr hid
            (by rw [isActive_overwrite, if_neg hid, ha]) (by rw [isActive_overwrite, if_pos rfl])
          rw [he, error_bind] at hflush
          cases hflush
        · obtain ⟨m, hm, hu⟩ := bind_eq_ok.mp hflush
          rw [ConsentTable.update_eq_ok hu, ConsentTable.update_eq_ok hm, List.map_map]
          exact List.map_congr_left fun r hrmem => overwrite_overwrite hc hr hid supersededAt effectiveFrom hrmem

end

/-! ## Sequences of activations -/

section

variable {s s' : VersionHistory} {a : Activation} {current : ConsentVersion}

/-- What a step does. -/
theorem activationSystem_step (hc : current ∈ s.table.rows) (ha : current.isActive = true)
    (h : activationSystem.step s a = some s') :
    s'.formerly = s.formerly ++ s.table.activeIds ∧
      ∃ requested ∈ s.table.rows, requested.versionId = a.versionId ∧
        s'.table.rows =
          s.table.rows.map (ConsentVersion.handOver current.id requested.id a.supersededAt a.effectiveFrom) := by
  unfold activationSystem at h
  simp only at h
  split at h
  · rename_i t ht
    obtain rfl := Option.some.inj h
    exact ⟨rfl, activateConsentVersion_ok hc ha ht⟩
  · cases h

theorem ConsentTable.mem_activeIds {t : ConsentTable} (hc : current ∈ t.rows) (ha : current.isActive = true)
    {id : Uuid} : id ∈ t.activeIds ↔ id = current.id := by
  rw [ConsentTable.activeIds, List.mem_map]
  constructor
  · rintro ⟨v, hv, rfl⟩
    obtain ⟨hv, hav⟩ := List.mem_filter.mp hv
    exact (t.isActive_iff hc ha hv).mp hav
  · rintro rfl
    exact ⟨current, List.mem_filter.mpr ⟨hc, ha⟩, rfl⟩

section

variable {requested : ConsentVersion} (hc : current ∈ s.table.rows) (ha : current.isActive = true)
  (hrows : s'.table.rows =
    s.table.rows.map (ConsentVersion.handOver current.id requested.id a.supersededAt a.effectiveFrom))

include hc ha hrows

/-- Where the dates match afterwards, the requested row was not the active one, and neither has a wrong date. -/
theorem handsOver_of_datesMatch (hr : requested ∈ s.table.rows) (hversion : requested.versionId = a.versionId)
    (hformerly : s'.formerly = s.formerly ++ s.table.activeIds) (h : DatesMatch s') : HandsOver s a := by
  obtain ⟨hnever, hdated⟩ := h
  have hmem : ∀ r ∈ s.table.rows,
      r.handOver current.id requested.id a.supersededAt a.effectiveFrom ∈ s'.table.rows :=
    fun r hrmem => hrows ▸ List.mem_map_of_mem hrmem
  have hnone := hnever _ (hmem requested hr) (if_pos rfl)
  simp only [ConsentVersion.handOver] at hnone
  split at hnone
  · cases hnone
  · rename_i hne
    have hinactive : requested.isActive = false := by
      rw [← Bool.not_eq_true, s.table.isActive_iff hc ha hr]
      exact hne
    have hold : current.id ∈ s'.formerly := by
      rw [hformerly]
      exact List.mem_append_right _ ((ConsentTable.mem_activeIds hc ha).mpr rfl)
    obtain ⟨d, hd, hle⟩ := hdated _ (hmem current hc) hold (by simp [ConsentVersion.handOver, Ne.symm hne])
    simp only [ConsentVersion.handOver, if_pos, Option.mem_some_iff, if_neg (Ne.symm hne)] at hd hle
    subst hd
    refine ⟨fun v hv he => ?_, fun v hv hav => ?_⟩
    · obtain rfl := s.table.eq_of_versionId hv hr (he.trans hversion.symm)
      exact ⟨hinactive, hnone⟩
    · obtain rfl := s.table.eq_of_active hv hc hav ha
      exact hle

/-- After a hand-over the active version is the requested one, which was never superseded. -/
theorem neverSuperseded_of_handsOver (hr : requested ∈ s.table.rows) (hversion : requested.versionId = a.versionId)
    (h : HandsOver s a) :
    ∀ v ∈ s'.table.rows, v.isActive = true → v.supersededAt = none := by
  intro v hv hav
  rw [hrows] at hv
  obtain ⟨r, hrmem, rfl⟩ := List.mem_map.mp hv
  obtain ⟨hinactive, hnone⟩ := h.1 requested hr hversion
  have hne : requested.id ≠ current.id := by
    rw [Ne, ← s.table.isActive_iff hc ha hr, hinactive]
    exact Bool.false_ne_true
  simp only [ConsentVersion.handOver] at hav ⊢
  split at hav
  · rename_i hid
    obtain rfl := s.table.eq_of_id hrmem hr hid
    rw [if_neg hne, hnone]
  · split at hav
    · cases hav
    · rename_i hid
      exact absurd ((s.table.isActive_iff hc ha hrmem).mp hav) hid

/-- After a hand-over the version that was active carries the date of it, and the earlier ones keep theirs. -/
theorem dated_of_handsOver (hformerly : s'.formerly = s.formerly ++ s.table.activeIds) (hs : DatesMatch s)
    (h : HandsOver s a) :
    ∀ v ∈ s'.table.rows, v.id ∈ s'.formerly → v.isActive = false →
      ∃ d ∈ v.supersededAt, v.effectiveFrom.instant ≤ d.instant := by
  intro v hv hold hav
  rw [hrows] at hv
  obtain ⟨r, hrmem, rfl⟩ := List.mem_map.mp hv
  have hid : r.id ∈ s'.formerly := hold
  simp only [ConsentVersion.handOver] at hav ⊢
  split at hav
  · cases hav
  · rename_i hrr
    rw [if_neg hrr]
    split at hav
    · rename_i hrc
      obtain rfl := s.table.eq_of_id hrmem hc hrc
      rw [if_pos rfl]
      exact ⟨a.supersededAt, rfl, h.2 r hrmem ha⟩
    · rename_i hrc
      rw [if_neg hrc]
      rw [hformerly, List.mem_append, ConsentTable.mem_activeIds hc ha] at hid
      exact hs.2 r hrmem (hid.resolve_right hrc) hav

end

/-- A step keeps the dates matching exactly when it hands over. -/
theorem datesMatch_step (hc : current ∈ s.table.rows) (ha : current.isActive = true) (hs : DatesMatch s)
    (h : activationSystem.step s a = some s') :
    (∃ v ∈ s'.table.rows, v.isActive = true) ∧ (DatesMatch s' ↔ HandsOver s a) := by
  obtain ⟨hformerly, requested, hr, hversion, hrows⟩ := activationSystem_step hc ha h
  have hactive : requested.handOver current.id requested.id a.supersededAt a.effectiveFrom ∈ s'.table.rows :=
    hrows ▸ List.mem_map_of_mem hr
  refine ⟨⟨_, hactive, if_pos rfl⟩, handsOver_of_datesMatch hc ha hrows hr hversion hformerly, fun hnew => ⟨?_, ?_⟩⟩
  · exact neverSuperseded_of_handsOver hc ha hrows hr hversion hnew
  · exact dated_of_handsOver hc ha hrows hformerly hs hnew

/-- **In every sequence of successful activations from a table whose active version was never superseded, the dates
match the flags exactly when each activation hands over to another version that was never superseded, when the active
one has come into effect.** -/
theorem datesMatch_iff {t : ConsentTable} (hc : current ∈ t.rows) (ha : current.isActive = true)
    (hnever : current.supersededAt = none) (activations : List Activation) :
    activationSystem.Always DatesMatch ⟨t, []⟩ activations ↔ activationSystem.Each HandsOver ⟨t, []⟩ activations := by
  have hstart : DatesMatch ⟨t, []⟩ :=
    ⟨fun v hv hav => t.eq_of_active hc hv ha hav ▸ hnever, fun v _ hold _ => absurd hold List.not_mem_nil⟩
  refine System.always_iff_each (I := fun s => ∃ v ∈ s.table.rows, v.isActive = true) ?_ ⟨current, hc, ha⟩ hstart
  rintro s a s' ⟨v, hv, hav⟩ hs h
  exact datesMatch_step hv hav hs h

end

/-- The third version is activated after the second. -/
theorem datesMatch_iff_third :
    activationSystem.Always DatesMatch ⟨ConsentSample.table, []⟩
        [⟨(ConsentSample.version 3 false).versionId, Sample.now, Sample.now⟩] ↔
      activationSystem.Each HandsOver ⟨ConsentSample.table, []⟩
        [⟨(ConsentSample.version 3 false).versionId, Sample.now, Sample.now⟩] :=
  datesMatch_iff (show ConsentSample.version 2 true ∈ ConsentSample.table.rows by decide) rfl rfl _

/-- The active version is activated again. -/
theorem not_datesMatch :
    ¬ ∀ (t : ConsentTable) (current : ConsentVersion) (activations : List Activation),
      current ∈ t.rows → current.isActive = true → current.supersededAt = none →
        activationSystem.Always DatesMatch ⟨t, []⟩ activations := by
  intro h
  have hrun := h ConsentSample.table (ConsentSample.version 2 true)
    [⟨(ConsentSample.version 2 true).versionId, Sample.now, Sample.now⟩] (by decide) rfl rfl
  have hsuperseded : ∃ s, activationSystem.step ⟨ConsentSample.table, []⟩
      ⟨(ConsentSample.version 2 true).versionId, Sample.now, Sample.now⟩ = some s ∧
        { ConsentSample.version 2 true with supersededAt := some Sample.now } ∈ s.table.rows := by
    refine ⟨_, rfl, ?_⟩
    decide
  obtain ⟨s, hstep, hmem⟩ := hsuperseded
  cases (hrun.2 s hstep).1 _ hmem rfl

end ComplianceLoop
