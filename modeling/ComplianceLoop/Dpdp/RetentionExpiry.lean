import ComplianceLoop.Dpdp.RetentionEnforcer

/-!
# When an application expires

`computeRetentionExpiry` computes the time that the nightly task compares with the clock. An override of zero days is
taken for no override, so the period is that of the environment. And the task reads the environment before it selects,
so that with an override too nothing is selected when the variable is no number (`retentionPeriod_iff`).
-/

set_option autoImplicit false

namespace ComplianceLoop

open PyLib

/-! ## The expiry of an application -/

/-- `retention_days or int(...)`. -/
def retentionDaysOr (environ : TextDict) (retentionDays : Option Int) : Except PyExc Int :=
  match retentionDays with
  | some days => if days = 0 then defaultRetentionDays environ else .ok days
  | none => defaultRetentionDays environ

/-- `compute_retention_expiry`. -/
def computeRetentionExpiry (environ : TextDict) (decisionDate : DateTime) (retentionDays : Option Int) :
    Except PyExc DateTime := do
  let days ← retentionDaysOr environ retentionDays
  let delta ← DateTime.daysDelta days
  decisionDate.plus delta

/-! ## The specification -/

/-- The period that is asked for: that of the override, or else that of the environment. -/
def requestedDays (environ : TextDict) (override : Option Nat) : Except PyExc Int :=
  match override with
  | some days => .ok days
  | none => defaultRetentionDays environ

/-- A batch at this time selects from rows with the application. -/
def IsCandidate (environ : TextDict) (now : DateTime) (applications : List Application) (a : Application) : Prop :=
  ∃ rows, wipeCandidates environ now applications = .ok rows ∧ a ∈ rows

/-- Whenever the expiry has been computed, an application with this expiry is a candidate exactly when it is later than
the date and the days that were asked for, and the application is neither wiped nor demo data. -/
def ExpiresOnTime (environ : TextDict) (date : DateTime) (override : Option Nat) : Prop :=
  ∀ expiry days, computeRetentionExpiry environ date (override.map Int.ofNat) = .ok expiry →
    requestedDays environ override = .ok days →
      ∀ (applications : List Application) (a : Application) (now : DateTime), a ∈ applications →
        a.dataRetentionExpiresAt = expiry → (IsCandidate environ now applications a ↔
          date.instant + days * dayMicros < now.instant ∧ a.retentionWiped = false ∧ a.isDemo = false)

/-- The date this many days later exists. -/
def InRange (date : DateTime) (days : Int) : Prop :=
  -999999999 ≤ days ∧ days ≤ 999999999 ∧ (DateTime.ofLocal (date.localMicros + days * dayMicros) date.tz).isSome = true

/-- The override is not zero, unless the environment has no other period that gives a date; and with an override that
gives a date, and a time after it, the environment has a number of days. -/
structure PeriodGiven (environ : TextDict) (date : DateTime) (override : Option Nat) : Prop where
  zero : override = some 0 → ∀ days, defaultRetentionDays environ = .ok days → days = 0 ∨ ¬ InRange date days
  readable : ∀ d : Nat, override = some d → d ≠ 0 → InRange date d →
    (∃ now : DateTime, date.instant + d * dayMicros < now.instant) → returned (defaultRetentionDays environ) = true

/-! ## The period -/

theorem due_iff {now : DateTime} {a : Application} :
    a.due now = true ↔
      a.dataRetentionExpiresAt.instant < now.instant ∧ a.retentionWiped = false ∧ a.isDemo = false := by
  rw [Application.due, Bool.and_eq_true, Bool.and_eq_true, decide_eq_true_eq, Bool.not_eq_true', Bool.not_eq_true',
    and_assoc]

section

variable {environ : TextDict} {date expiry : DateTime} {override : Option Nat}

theorem isCandidate_iff {now : DateTime} {applications : List Application} {a : Application} (ha : a ∈ applications) :
    IsCandidate environ now applications a ↔ returned (defaultRetentionDays environ) = true ∧ a.due now = true := by
  unfold IsCandidate wipeCandidates
  constructor
  · rintro ⟨rows, hrows, hmem⟩
    obtain ⟨days, hdays, rfl⟩ := map_eq_ok.mp hrows
    exact ⟨returned_iff.mpr ⟨days, hdays⟩, (List.mem_filter.mp hmem).2⟩
  · rintro ⟨hreadable, hdue⟩
    obtain ⟨days, hdays⟩ := returned_iff.mp hreadable
    exact ⟨_, map_eq_ok.mpr ⟨days, hdays, rfl⟩, List.mem_filter.mpr ⟨ha, hdue⟩⟩

/-- An expiry that was computed is some days later than the date. -/
theorem computeRetentionExpiry_eq_ok {retentionDays : Option Int}
    (h : computeRetentionExpiry environ date retentionDays = .ok expiry) :
    ∃ days, retentionDaysOr environ retentionDays = .ok days ∧ InRange date days ∧
      expiry.instant = date.instant + days * dayMicros := by
  obtain ⟨days, hdays, h⟩ := bind_eq_ok.mp h
  obtain ⟨delta, hdelta, hplus⟩ := bind_eq_ok.mp h
  unfold DateTime.daysDelta at hdelta
  split at hdelta
  · rename_i hr
    obtain rfl := Except.ok.inj hdelta
    refine ⟨days, hdays, ⟨hr.1, hr.2, ?_⟩, DateTime.instant_plus hplus⟩
    unfold DateTime.plus at hplus
    split at hplus
    · rename_i w hw
      exact Option.isSome_iff_exists.mpr ⟨w, hw⟩
    · cases hplus
  · cases hdelta

/-- In range an expiry is computed. -/
theorem computeRetentionExpiry_of_inRange {retentionDays : Option Int} {days : Int}
    (hdays : retentionDaysOr environ retentionDays = .ok days) (hr : InRange date days) :
    ∃ expiry, computeRetentionExpiry environ date retentionDays = .ok expiry := by
  obtain ⟨hlow, hhigh, hlocal⟩ := hr
  obtain ⟨w, hw⟩ := Option.isSome_iff_exists.mp hlocal
  refine ⟨w, bind_eq_ok.mpr ⟨days, hdays, bind_eq_ok.mpr ⟨days * dayMicros, ?_, ?_⟩⟩⟩
  · exact if_pos ⟨hlow, hhigh⟩
  · rw [DateTime.plus, hw]

/-- An override that is not zero is taken. -/
theorem retentionDaysOr_requested (h : override ≠ some 0) :
    retentionDaysOr environ (override.map Int.ofNat) = requestedDays environ override := by
  cases override with
  | none => rfl
  | some d =>
    have hd : (d : Int) ≠ 0 := fun h0 => h (congrArg some (Int.ofNat.inj h0))
    exact if_neg hd

/-- An override of zero is taken for the days of the environment. -/
theorem zero_of_expiresOnTime (h : ExpiresOnTime environ date (some 0)) {days : Int}
    (hdays : defaultRetentionDays environ = .ok days) : days = 0 ∨ ¬ InRange date days := by
  by_contra hother
  rw [not_or, not_not] at hother
  obtain ⟨hne, hr⟩ := hother
  have hzero : retentionDaysOr environ (some 0) = .ok days := hdays
  obtain ⟨expiry, hexpiry⟩ := computeRetentionExpiry_of_inRange hzero hr
  obtain ⟨days', hdays', -, hinstant⟩ := computeRetentionExpiry_eq_ok hexpiry
  obtain rfl : days = days' := Except.ok.inj (hdays.symm.trans hdays')
  let a : Application := { WipeSample.application 1 with dataRetentionExpiresAt := expiry }
  have hreadable : returned (defaultRetentionDays environ) = true := by rw [hdays]; rfl
  have hdue : ∀ now : DateTime, expiry.instant < now.instant ↔ date.instant < now.instant := by
    intro now
    have hiff := h expiry 0 hexpiry rfl [a] a now (List.mem_singleton_self a) rfl
    rw [isCandidate_iff (List.mem_singleton_self a), and_iff_right hreadable, due_iff] at hiff
    simpa [a, WipeSample.application] using hiff
  -- the expiry lies on one side of the date: the later of the two instants tells them apart
  rcases Int.lt_or_gt_of_ne hne with hneg | hpos
  · exact lt_irrefl _ ((hdue date).mp (by rw [hinstant, dayMicros]; omega))
  · exact lt_irrefl _ ((hdue expiry).mpr (by rw [hinstant, dayMicros]; omega))

/-- The days of an expiry that was computed are those that were asked for. -/
theorem days_of_periodGiven (h : PeriodGiven environ date override) {days : Int}
    (hexpiry : computeRetentionExpiry environ date (override.map Int.ofNat) = .ok expiry)
    (hdays : requestedDays environ override = .ok days) :
    InRange date days ∧ expiry.instant = date.instant + days * dayMicros := by
  obtain ⟨days', hdays', hr, hinstant⟩ := computeRetentionExpiry_eq_ok hexpiry
  have hsame : days' = days := by
    by_cases hzero : override = some 0
    · rw [hzero] at hdays hdays'
      rw [← Except.ok.inj hdays]
      exact (h.zero hzero days' hdays').resolve_right (not_not_intro hr)
    · rw [retentionDaysOr_requested hzero] at hdays'
      exact Except.ok.inj (hdays'.symm.trans hdays)
  rw [← hsame]
  exact ⟨hr, hinstant⟩

/-- When the expiry has passed, the environment has a number of days. -/
theorem readable_of_periodGiven (h : PeriodGiven environ date override) {days : Int} {now : DateTime}
    (hexpiry : computeRetentionExpiry environ date (override.map Int.ofNat) = .ok expiry)
    (hdays : requestedDays environ override = .ok days) (hlate : date.instant + days * dayMicros < now.instant) :
    returned (defaultRetentionDays environ) = true := by
  cases override with
  | none => exact returned_iff.mpr ⟨days, hdays⟩
  | some d =>
    by_cases hd : d = 0
    · subst hd
      obtain ⟨days', hdays', -⟩ := computeRetentionExpiry_eq_ok hexpiry
      exact returned_iff.mpr ⟨days', hdays'⟩
    · obtain rfl : (d : Int) = days := Except.ok.inj hdays
      exact h.readable d rfl hd (days_of_periodGiven h hexpiry hdays).1 ⟨now, hlate⟩

end

end ComplianceLoop
