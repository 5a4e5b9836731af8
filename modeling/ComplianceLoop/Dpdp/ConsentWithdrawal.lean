import ComplianceLoop.Transition.Runs
import ComplianceLoop.Dpdp.RetentionEnforcer
import ComplianceLoop.Dpdp.ConsentActivation

/-!
# `dpdp/data_subject_handler.py`: the withdrawal of consent

`handleConsentWithdrawal` marks the applications of an applicant. A `ConsentHistory` is what withdrawals, submissions
and the rest of the system make of the tables, with the withdrawals that have completed. The check of a submission
reads none of it: a consent that was given before a withdrawal is accepted until its validity has run out
(`withdrawalsHonoured_iff`).
-/

set_option autoImplicit false

namespace ComplianceLoop

open PyLib Transition

/-- A call of `handle_consent_withdrawal`, with the time it reads. -/
structure WithdrawalRequest where
  applicantId : Text
  requestingPanHmac : Text
  now : DateTime

/-- The dict that the call returns. -/
structure WithdrawalResponse where
  applicantId : Text
  consentWithdrawnAt : Text
  applicationsAffected : Nat
  message : Text
  deriving DecidableEq

/-- The WHERE clause. -/
def WithdrawalRequest.selects (req : WithdrawalRequest) (applicantId : Uuid) (a : Application) : Bool :=
  a.applicantId = applicantId && a.panHmac = req.requestingPanHmac && !a.isDemo

/-- `handle_consent_withdrawal`: what it returns or raises, and the applications afterwards. -/
def handleConsentWithdrawal (req : WithdrawalRequest) (rows : List Application) :
    Except PyExc WithdrawalResponse × List Application :=
  match Uuid.parse req.applicantId with
  | none => (raise .valueError "badly formed hexadecimal UUID string".toList, rows)
  | some applicantId =>
    let applications := rows.filter (req.selects applicantId)
    if applications.isEmpty then
      (raise .valueError ("No applications found for applicant_id '".toList ++ req.applicantId ++ "'.".toList), rows)
    else
      (.ok
        { applicantId := req.applicantId
          consentWithdrawnAt := req.now.isoformat
          applicationsAffected := applications.length
          message := "Consent has been withdrawn. Future applications will require fresh consent. ".toList ++
            "Prior decisions made under valid consent remain legally effective.".toList },
        rows.map fun a => if req.selects applicantId a then { a with dpdpConsentGiven := false } else a)

/-! ## Histories -/

/-- A withdrawal that has completed. -/
structure Withdrawal where
  applicantId : Uuid
  time : DateTime

/-- The tables, the environment, the clock, and the withdrawals that have completed, none of them in the future. -/
structure ConsentHistory where
  applications : List Application
  versions : ConsentTable
  environ : TextDict
  clock : DateTime
  withdrawals : List Withdrawal
  past : ∀ w ∈ withdrawals, w.time.instant ≤ clock.instant

/-- The steps. -/
inductive ConsentStep where
  /-- Time passes. -/
  | tick (now : DateTime)
  /-- Whatever else writes the applications. -/
  | store (rows : List Application)
  /-- A version of the consent form comes in. -/
  | publish (v : ConsentVersion)
  | activate (versionId : Text)
  | configure (environ : TextDict)
  | withdraw (applicantId requestingPanHmac : Text)

/-- `INSERT INTO consent_versions`; `none` where a constraint is violated. -/
def ConsentTable.insert (t : ConsentTable) (v : ConsentVersion) : Option ConsentTable :=
  if h : ((t.rows ++ [v]).map ConsentVersion.id).Nodup ∧ ((t.rows ++ [v]).map ConsentVersion.versionId).Nodup ∧
      ((t.rows ++ [v]).filter ConsentVersion.isActive).length ≤ 1 then
    some ⟨t.rows ++ [v], h.1, h.2.1, h.2.2⟩
  else none

namespace ConsentHistory

/-- One step; `none` where it is not possible. -/
def step (s : ConsentHistory) : ConsentStep → Option ConsentHistory
  | .tick now =>
    if h : s.clock.instant ≤ now.instant then
      some { s with
        clock := now
        past := fun w hw => (s.past w hw).trans h }
    else none
  | .store rows => some { s with applications := rows }
  | .publish v => (s.versions.insert v).map fun versions => { s with versions := versions }
  | .activate versionId =>
    some { s with versions := (activateConsentVersion versionId s.clock s.clock s.versions).2 }
  | .configure environ => some { s with environ := environ }
  | .withdraw applicantId requestingPanHmac =>
    let result := handleConsentWithdrawal ⟨applicantId, requestingPanHmac, s.clock⟩ s.applications
    match result.1, Uuid.parse applicantId with
    | .ok _, some id =>
      some { s with
        applications := result.2
        withdrawals := ⟨id, s.clock⟩ :: s.withdrawals
        past := fun w hw => by
          rcases List.mem_cons.mp hw with rfl | hw
          · exact le_refl s.clock.instant
          · exact s.past w hw }
    | _, _ => some { s with applications := result.2 }

/-- What a check at this moment reads. -/
def context (s : ConsentHistory) (validityHours : Int) (ageText : Int → Text) : ConsentContext :=
  ⟨s.environ, validityHours, s.clock, s.versions, ageText⟩

end ConsentHistory

/-- The histories as a system. -/
def consentSystem : System ConsentHistory ConsentStep := ⟨ConsentHistory.step⟩

/-- A submission of an applicant. -/
structure Submission (D : Type) extends ConsentClaim D where
  applicantId : Uuid

section

variable (D : Type) (validityHours : Int) (ageText : Int → Text)

/-- No submission of an applicant with a consent from before a completed withdrawal is accepted. -/
def WithdrawalsHonoured (s : ConsentHistory) : Prop :=
  ∀ w ∈ s.withdrawals, ∀ sub : Submission D, sub.applicantId = w.applicantId →
    sub.consentTimestamp.instant ≤ w.time.instant →
      ¬ Accepts (validateConsent (s.context validityHours ageText) sub.toConsentClaim)

/-- A version is active, and consents of this time are not older than the validity. -/
def StillFresh (c : ConsentContext) (time : DateTime) : Prop :=
  ∃ hours limit cutoff active, c.envValidity = .ok hours ∧ c.skewLimit = .ok limit ∧
    c.consentCutoff hours = .ok cutoff ∧
    cutoff.instant ≤ time.instant ∧ getActiveConsentVersion c.versions = some active

/-- Every withdrawal is older than the validity of a consent, or no version is active. -/
def WithdrawalsExpired (s : ConsentHistory) : Prop :=
  ∀ w ∈ s.withdrawals, ¬ StillFresh (s.context validityHours ageText) w.time

variable {D validityHours ageText}

/-- In every state, the withdrawals are honoured exactly when they have expired. -/
theorem withdrawalsHonoured_state (s : ConsentHistory) :
    WithdrawalsHonoured D validityHours ageText s ↔ WithdrawalsExpired validityHours ageText s := by
  constructor
  · rintro h w hw ⟨hours, limit, cutoff, active, hhours, hlimit, hcutoff, hle, hactive⟩
    -- the consent that was given at the moment of the withdrawal
    let sub : Submission D := ⟨⟨.bool true, active.versionId, w.time⟩, w.applicantId⟩
    have hlater : w.time.instant ≤ limit.instant := by
      have hpast := s.past w hw
      have hskew : limit.instant = s.clock.instant + 300000000 := DateTime.instant_plus hlimit
      omega
    exact h w hw sub rfl le_rfl (validateConsent_accepts_iff.mpr
      ⟨hours, limit, cutoff, active, hhours, rfl, hlimit, hlater, hcutoff, hle, hactive, rfl⟩)
  · intro h w hw sub _ hbefore haccepts
    obtain ⟨hours, limit, cutoff, active, hhours, -, hlimit, -, hcutoff, hle, hactive, -⟩ :=
      validateConsent_accepts_iff.mp haccepts
    exact h w hw ⟨hours, limit, cutoff, active, hhours, hlimit, hcutoff, hle.trans hbefore, hactive⟩

/-- **In every history, a consent from before a withdrawal is refused throughout exactly when, throughout, every
withdrawal is older than the validity of a consent or no version is active.** -/
theorem withdrawalsHonoured_iff (s : ConsentHistory) (ls : List ConsentStep) :
    consentSystem.Always (WithdrawalsHonoured D validityHours ageText) s ls ↔
      consentSystem.Always (WithdrawalsExpired validityHours ageText) s ls :=
  System.always_congr withdrawalsHonoured_state s ls

end

namespace ConsentSample

/-- An application and the three versions, in the night. -/
def history : ConsentHistory :=
  ⟨[WipeSample.application 1], table, .empty, WipeSample.midnight 0, [], fun _ h => absurd h List.not_mem_nil⟩

/-- The consent that was given at the moment of the withdrawal. -/
def submission : Submission WholeFloat :=
  ⟨⟨.bool true, (version 2 true).versionId, WipeSample.midnight 0⟩, (WipeSample.application 1).applicantId⟩

/-- It is accepted at noon. -/
def acceptedAtNoon : { v : ConsentValidationResult //
    validateConsent ⟨.empty, 24, Sample.now, table, fun _ => []⟩ submission.toConsentClaim = .ok v ∧
      v.isValid = true } :=
  ⟨⟨true, none, none, some (version 2 true).versionId⟩, by decide, rfl⟩

end ConsentSample

/-- The applicant withdraws the consent at midnight; at noon the consent of midnight is still accepted. -/
theorem withdrawn_consent_accepted :
    ¬ ∀ (s s' : ConsentHistory) (ls : List ConsentStep), s.withdrawals = [] → consentSystem.run s ls = some s' →
      WithdrawalsHonoured WholeFloat 24 (fun _ => []) s' := by
  intro h
  have hrun : (consentSystem.run ConsentSample.history
      [.withdraw (WipeSample.application 1).applicantId.str [], .tick Sample.now]).map (fun s =>
        (s.withdrawals.map (fun w => (w.applicantId, w.time)), s.environ, s.clock, s.versions.rows)) =
      some ([((WipeSample.application 1).applicantId, WipeSample.midnight 0)], .empty, Sample.now,
        ConsentSample.table.rows) := by
    decide
  obtain ⟨s, hs, heq⟩ := Option.map_eq_some_iff.mp hrun
  obtain ⟨hwithdrawals, heq⟩ := Prod.mk.inj heq
  obtain ⟨henviron, heq⟩ := Prod.mk.inj heq
  obtain ⟨hclock, hrows⟩ := Prod.mk.inj heq
  obtain ⟨w, hw, hweq⟩ := List.mem_map.mp (hwithdrawals ▸ List.mem_singleton_self _)
  obtain ⟨hid, htime⟩ := Prod.mk.inj hweq
  have hcontext : s.context 24 (fun _ => []) = ⟨.empty, 24, Sample.now, ConsentSample.table, fun _ => []⟩ := by
    rw [ConsentHistory.context, henviron, hclock, ConsentTable.ext hrows]
  refine h _ s _ rfl hs w hw ConsentSample.submission hid.symm (le_of_eq (congrArg DateTime.instant htime.symm)) ?_
  rw [hcontext]
  exact ⟨_, ConsentSample.acceptedAtNoon.2⟩

end ComplianceLoop
