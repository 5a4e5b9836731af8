import Mathlib.Data.List.Sort
import ComplianceLoop.PyLib.Json
import ComplianceLoop.PyLib.DateTime
import ComplianceLoop.PyLib.Strings

/-!
# `dpdp/consent_manager.py`

The versions of the consent form, the check of the consent of a submission, and the activation of a version. A
`ConsentTable` is a state of `consent_versions` that its indexes allow: one row for an id and for a `version_id`, and at
most one active row. `validateConsent_accepts_iff` says what the check accepts.
-/

set_option autoImplicit false

namespace ComplianceLoop

open PyLib

/-- The columns of `consent_versions` that the manager reads or writes. -/
structure ConsentVersion where
  id : Uuid
  versionId : Text
  isActive : Bool
  effectiveFrom : DateTime
  supersededAt : Option DateTime
  deriving DecidableEq

/-- The table, with its primary key, the unique `version_id` and the partial index `ix_consent_versions_active`. -/
@[ext]
structure ConsentTable where
  rows : List ConsentVersion
  keyed : (rows.map ConsentVersion.id).Nodup
  distinct : (rows.map ConsentVersion.versionId).Nodup
  oneActive : (rows.filter ConsentVersion.isActive).length ≤ 1

/-- `get_active_consent_version`. -/
def getActiveConsentVersion (t : ConsentTable) : Option ConsentVersion := t.rows.find? ConsentVersion.isActive

/-! ## The check of a consent -/

/-- `ConsentValidationResult`. -/
structure ConsentValidationResult where
  isValid : Bool
  errorCode : Option Text
  errorMessage : Option Text
  activeVersionId : Option Text
  deriving DecidableEq

/-- A refusal. -/
def ConsentValidationResult.refused (errorCode errorMessage : Text) (activeVersionId : Option Text) :
    ConsentValidationResult := ⟨false, some errorCode, some errorMessage, activeVersionId⟩

/-- What a request says of the consent. -/
structure ConsentClaim (D : Type) where
  dpdpConsent : Json D
  consentVersion : Text
  consentTimestamp : DateTime

/-- `v is True`. -/
def isTrue {D : Type} : Json D → Bool
  | .bool true => true
  | _ => false

/-- What surrounds the check: the environment, the `validity_hours` of the call, the clock and the table; `ageText` is
`f"{age_hours:.1f}"` of an age in microseconds. -/
structure ConsentContext where
  environ : TextDict
  validityHours : Int
  now : DateTime
  versions : ConsentTable
  ageText : Int → Text

namespace ConsentContext

variable (c : ConsentContext)

/-- `env_validity`. -/
def envValidity : Except PyExc Int :=
  let text := c.environ.get "DPDP_CONSENT_VALIDITY_HOURS".toList (toString c.validityHours).toList
  match intOfDecimal text with
  | some hours => .ok hours
  | none => raise .valueError ("invalid literal for int() with base 10: '".toList ++ text ++ "'".toList)

/-- The clock with five minutes of skew. -/
def skewLimit : Except PyExc DateTime := c.now.plus 300000000

/-- `consent_cutoff`. -/
def consentCutoff (hours : Int) : Except PyExc DateTime := do
  let delta ← DateTime.hoursDelta hours
  c.now.plus (-delta)

end ConsentContext

/-- `validate_consent`. -/
def validateConsent {D : Type} (c : ConsentContext) (claim : ConsentClaim D) :
    Except PyExc ConsentValidationResult := do
  let hours ← c.envValidity
  if isTrue claim.dpdpConsent = false then
    return .refused "DPDP_CONSENT_NOT_GIVEN".toList
      ("DPDP consent is required. Set dpdp_consent: true in the request body. ".toList ++
        "The applicant must explicitly consent to data processing before ".toList ++
        "the application can be submitted.".toList) none
  let consentTimestamp := claim.consentTimestamp.assumeUtc
  let limit ← c.skewLimit
  if limit.instant < consentTimestamp.instant then
    return .refused "DPDP_CONSENT_TIMESTAMP_FUTURE".toList
      ("consent_timestamp is in the future. ".toList ++
        "Ensure the client clock is synchronised with NTP.".toList) none
  let cutoff ← c.consentCutoff hours
  if consentTimestamp.instant < cutoff.instant then
    return .refused "DPDP_CONSENT_EXPIRED".toList
      ("Consent is ".toList ++ c.ageText (c.now.instant - consentTimestamp.instant) ++
        " hours old and has expired (maximum ".toList ++ (toString hours).toList ++ " hours). ".toList ++
        "The applicant must re-consent before submitting the application.".toList) none
  match getActiveConsentVersion c.versions with
  | none =>
    return .refused "DPDP_NO_ACTIVE_CONSENT_VERSION".toList
      ("No active consent version is configured. ".toList ++
        "System configuration error — contact support.".toList) none
  | some active =>
    if claim.consentVersion ≠ active.versionId then
      return .refused "DPDP_CONSENT_VERSION_MISMATCH".toList
        ("Consent version '".toList ++ claim.consentVersion ++ "' is not the current version. ".toList ++
          "Current version is '".toList ++ active.versionId ++ "'. ".toList ++
          "Re-present the updated consent notice to the applicant and obtain fresh consent.".toList)
        (some active.versionId)
    else
      return ⟨true, none, none, some active.versionId⟩

/-- The check passed. -/
def Accepts (r : Except PyExc ConsentValidationResult) : Prop := ∃ v, r = .ok v ∧ v.isValid = true

/-- **What the check accepts**: a consent given after the cutoff, not in the future, for the active version. -/
theorem validateConsent_accepts_iff {D : Type} {c : ConsentContext} {claim : ConsentClaim D} :
    Accepts (validateConsent c claim) ↔
      ∃ hours limit cutoff active, c.envValidity = .ok hours ∧ isTrue claim.dpdpConsent = true ∧
        c.skewLimit = .ok limit ∧ claim.consentTimestamp.instant ≤ limit.instant ∧
        c.consentCutoff hours = .ok cutoff ∧ cutoff.instant ≤ claim.consentTimestamp.instant ∧
        getActiveConsentVersion c.versions = some active ∧ claim.consentVersion = active.versionId := by
  constructor
  · rintro ⟨v, hv, hvalid⟩
    obtain ⟨hours, hhours, hv⟩ := bind_eq_ok.mp hv
    split at hv
    · cases hv
      cases hvalid
    rename_i hconsent
    obtain ⟨limit, hlimit, hv⟩ := bind_eq_ok.mp hv
    split at hv
    · cases hv
      cases hvalid
    rename_i hfuture
    obtain ⟨cutoff, hcutoff, hv⟩ := bind_eq_ok.mp hv
    split at hv
    · cases hv
      cases hvalid
    rename_i hexpired
    split at hv
    · cases hv
      cases hvalid
    rename_i active hactive
    split at hv
    · cases hv
      cases hvalid
    rename_i hversion
    rw [DateTime.instant_assumeUtc] at hfuture hexpired
    exact ⟨hours, limit, cutoff, active, hhours, Bool.not_eq_false _ ▸ hconsent, hlimit, by omega, hcutoff, by omega,
      hactive, not_not.mp hversion⟩
  · rintro ⟨hours, limit, cutoff, active, hhours, hconsent, hlimit, hfuture, hcutoff, hexpired, hactive, hversion⟩
    refine ⟨⟨true, none, none, some active.versionId⟩, ?_, rfl⟩
    have hnotFuture : ¬ limit.instant < claim.consentTimestamp.assumeUtc.instant := by
      rw [DateTime.instant_assumeUtc]
      omega
    have hnotExpired : ¬ claim.consentTimestamp.assumeUtc.instant < cutoff.instant := by
      rw [DateTime.instant_assumeUtc]
      omega
    refine bind_eq_ok.mpr ⟨hours, hhours, ?_⟩
    rw [if_neg (by rw [hconsent]; decide)]
    refine bind_eq_ok.mpr ⟨limit, hlimit, ?_⟩
    rw [if_neg hnotFuture]
    refine bind_eq_ok.mpr ⟨cutoff, hcutoff, ?_⟩
    rw [if_neg hnotExpired, hactive]
    exact if_neg (not_not.mpr hversion)

/-! ## The activation of a version -/

/-- What `UPDATE consent_versions` with the attributes of the object `v` makes of a row. -/
def ConsentVersion.overwrite (v r : ConsentVersion) : ConsentVersion :=
  if r.id = v.id then
    { r with
      isActive := v.isActive
      effectiveFrom := v.effectiveFrom
      supersededAt := v.supersededAt }
  else r

@[simp] theorem id_overwrite (v r : ConsentVersion) : (v.overwrite r).id = r.id := by
  unfold ConsentVersion.overwrite
  split <;> rfl

@[simp] theorem versionId_overwrite (v r : ConsentVersion) : (v.overwrite r).versionId = r.versionId := by
  unfold ConsentVersion.overwrite
  split <;> rfl

theorem isActive_overwrite (v r : ConsentVersion) :
    (v.overwrite r).isActive = if r.id = v.id then v.isActive else r.isActive := by
  unfold ConsentVersion.overwrite
  split <;> rfl

/-- One `UPDATE consent_versions`; the partial index is checked at once. -/
def ConsentTable.update (t : ConsentTable) (v : ConsentVersion) : Except PyExc ConsentTable :=
  if h : ((t.rows.map v.overwrite).filter ConsentVersion.isActive).length ≤ 1 then
    .ok
      { rows := t.rows.map v.overwrite
        keyed := by
          rw [List.map_map, show ConsentVersion.id ∘ v.overwrite = ConsentVersion.id from funext (id_overwrite v)]
          exact t.keyed
        distinct := by
          rw [List.map_map,
            show ConsentVersion.versionId ∘ v.overwrite = ConsentVersion.versionId from funext (versionId_overwrite v)]
          exact t.distinct
        oneActive := h }
  else raise .databaseError "duplicate key value violates unique constraint \"ix_consent_versions_active\"".toList

/-- The flush of the changed objects: one UPDATE after the other, in the order of the primary keys. -/
def ConsentTable.flush (t : ConsentTable) (dirty : List ConsentVersion) : Except PyExc ConsentTable :=
  (dirty.insertionSort fun u v => u.id.int ≤ v.id.int).foldlM ConsentTable.update t

/-- An assignment to the attributes of the object with this id. -/
def assign (id : Uuid) (f : ConsentVersion → ConsentVersion) (objects : List ConsentVersion) : List ConsentVersion :=
  objects.map fun v => if v.id = id then f v else v

/-- The objects that `activate_consent_version` has changed when it commits; a row that is read twice is one object. -/
def activatedObjects (newVersion : ConsentVersion) (currentActive : Option ConsentVersion)
    (supersededAt effectiveFrom : DateTime) : List ConsentVersion :=
  let activate (objects : List ConsentVersion) := assign newVersion.id
    (fun v => { v with isActive := true, effectiveFrom := effectiveFrom }) objects
  match currentActive with
  | none => activate [newVersion]
  | some current =>
    activate (assign current.id (fun v => { v with isActive := false, supersededAt := some supersededAt })
      (if current.id = newVersion.id then [newVersion] else [newVersion, current]))

/-- `activate_consent_version`: what it returns or raises, and the table afterwards; an exception rolls back. -/
def activateConsentVersion (newVersionId : Text) (supersededAt effectiveFrom : DateTime) (t : ConsentTable) :
    Except PyExc Unit × ConsentTable :=
  match t.rows.find? fun v => v.versionId = newVersionId with
  | none =>
    (raise .valueError ("Consent version '".toList ++ newVersionId ++ "' does not exist in the database.".toList), t)
  | some newVersion =>
    match t.flush (activatedObjects newVersion (getActiveConsentVersion t) supersededAt effectiveFrom) with
    | .ok t' => (.ok (), t')
    | .error e => (.error e, t)

end ComplianceLoop
