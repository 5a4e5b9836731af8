import Mathlib.Data.List.Forall2
import ComplianceLoop.Audit.RetryUploads
import ComplianceLoop.Db.BreakGlass
import ComplianceLoop.Dpdp.RetentionEnforcer

/-!
# What `break_glass_range` flags

The procedure is documented to flag all records that were written in a range. It flags by application, so that it
flags a record outside the range too when another record of the same application is inside (`flagsRange_iff`, for a
server that takes the names in the procedure as columns).
-/

set_option autoImplicit false

namespace ComplianceLoop

open PyLib

/-- The unflagged records of the range. -/
def AuditRecord.isUnflaggedIn (start stop : DateTime) (r : AuditRecord) : Bool :=
  !r.breachFlag && r.inRange start stop

/-- The breach columns of exactly the unflagged records of the range change; the changes are counted; each application
with a record in the range has one alert. -/
structure FlagsRange (start stop : DateTime) (db : BreachDb) (row : BreakGlassRangeRow) (db' : BreachDb) : Prop where
  flagged : List.Forall₂ (fun r r' : AuditRecord => !r.breachFlag && r'.breachFlag ↔ r.isUnflaggedIn start stop)
    db.database.auditRecords db'.database.auditRecords
  kept : List.Forall₂ (fun r r' : AuditRecord => r.isUnflaggedIn start stop = false →
    r'.breachFlag = r.breachFlag ∧ r'.breachFlaggedAt = r.breachFlaggedAt)
    db.database.auditRecords db'.database.auditRecords
  counted : row.recordsFlagged =
    (db.database.auditRecords.zip db'.database.auditRecords).countP fun p => !p.1.breachFlag && p.2.breachFlag
  alerts : ∃ queued, db'.outbox = db.outbox ++ queued ∧
    (∀ n ∈ queued, n.notificationType = .breachAlert ∧ n.status = .pending) ∧
      ∀ u, queued.countP (·.recipientApplicationId = some u) =
        if db.database.auditRecords.any (fun r => r.inRange start stop && r.applicationId = u) then 1 else 0

section

variable {call : BreachCall} {start stop : DateTime} {db : BreachDb}

/-- The record after the UPDATE for these applications. -/
theorem breachFlag_update (now : DateTime) (apps : List Uuid) (r : AuditRecord) :
    (!r.breachFlag && (if r.isUnflaggedOf apps then r.flagged now else r).breachFlag) = r.isUnflaggedOf apps := by
  by_cases h : r.isUnflaggedOf apps = true
  · rw [if_pos h, h, (isUnflaggedOf_iff.mp h).2]
    rfl
  · rw [if_neg h, Bool.not_and_self, Bool.eq_false_of_not_eq_true h]

/-- One alert for each of the applications. -/
theorem countP_breachAlert {apps : List Uuid} (hn : apps.Nodup) (count : Uuid → Nat) (u : Uuid) :
    (apps.map fun v => breachAlert call v (count v)).countP (·.recipientApplicationId = some u) =
      if u ∈ apps then 1 else 0 := by
  rw [List.countP_map, ← hn.count, List.count]
  refine List.countP_congr fun v _ => ?_
  simp [breachAlert]

/-- **The procedure flags exactly the range if and only if every unflagged record of an application with a record in
the range is in the range itself.** -/
theorem flagsRange_iff (hc : call.variableConflict = .useColumn) (h : db.References) :
    (∃ row db', breakGlassRange call start stop db = .ok (row, db') ∧ FlagsRange start stop db row db') ↔
      ∀ r ∈ db.database.auditRecords, r.breachFlag = false →
        (∃ q ∈ db.database.auditRecords, q.inRange start stop = true ∧ q.applicationId = r.applicationId) →
          r.inRange start stop = true := by
  have hrun := breakGlassRange_eq hc start stop h
  let apps := affectedApplications call.distinct start stop db.database.auditRecords
  have hmem : ∀ u, u ∈ apps ↔ ∃ q ∈ db.database.auditRecords, q.inRange start stop = true ∧ q.applicationId = u :=
    fun u => mem_affectedApplications
  have hin : ∀ r ∈ db.database.auditRecords, r.isUnflaggedIn start stop = true → r.isUnflaggedOf apps = true := by
    intro r hr hu
    obtain ⟨hflag, hrange⟩ := Bool.and_eq_true_iff.mp hu
    exact isUnflaggedOf_iff.mpr ⟨(hmem _).mpr ⟨r, hr, hrange, rfl⟩, Bool.not_eq_true' _ ▸ hflag⟩
  constructor
  · rintro ⟨row, db', heq, hflags⟩ r hr hflag hq
    obtain ⟨-, rfl⟩ := Prod.mk.inj (Except.ok.inj (hrun.symm.trans heq))
    have hchanged := List.forall₂_same.mp (List.forall₂_map_right_iff.mp hflags.flagged) r hr
    rw [breachFlag_update] at hchanged
    have hu := hchanged.mp (isUnflaggedOf_iff.mpr ⟨(hmem _).mpr hq, hflag⟩)
    exact (Bool.and_eq_true_iff.mp hu).2
  · intro hall
    have hiff : ∀ r ∈ db.database.auditRecords, r.isUnflaggedOf apps = r.isUnflaggedIn start stop := by
      intro r hr
      rw [Bool.eq_iff_iff]
      refine ⟨fun hu => ?_, hin r hr⟩
      obtain ⟨happ, hflag⟩ := isUnflaggedOf_iff.mp hu
      exact Bool.and_eq_true_iff.mpr ⟨by rw [hflag]; rfl, hall r hr hflag ((hmem _).mp happ)⟩
    refine ⟨_, _, hrun, ?_, ?_, ?_, _, rfl, ?_, fun u => ?_⟩
    · refine List.forall₂_map_right_iff.mpr (List.forall₂_same.mpr fun r hr => ?_)
      rw [breachFlag_update]
      exact Bool.eq_iff_iff.mp (hiff r hr)
    · refine List.forall₂_map_right_iff.mpr (List.forall₂_same.mpr fun r hr hout => ?_)
      rw [if_neg (by rw [hiff r hr, hout]; decide)]
      exact ⟨rfl, rfl⟩
    · show unflaggedCount apps _ = _
      rw [flagRecords, ← List.map_prod_left_eq_zip, List.countP_map, unflaggedCount]
      exact List.countP_congr fun r _ => by rw [Function.comp_apply, breachFlag_update]
    · intro n hn
      obtain ⟨u, -, rfl⟩ := List.mem_map.mp hn
      exact ⟨rfl, rfl⟩
    · have hn : apps.Nodup := call.distinct.nodup _
      have hany : (db.database.auditRecords.any fun r => r.inRange start stop && r.applicationId = u) = true ↔
          u ∈ apps := by
        simp only [List.any_eq_true, Bool.and_eq_true, decide_eq_true_eq]
        exact (hmem u).symm
      exact (countP_breachAlert hn _ u).trans (if_congr hany rfl rfl).symm

end

namespace BreachSample

/-- The record of a decision, for an application, written on a day. -/
def record (n application day : Nat) : AuditRecord :=
  { RetrySample.record n application with writtenAt := WipeSample.midnight day }

/-- The first application has a record on each of two days, the second one on the first day. -/
def db : BreachDb :=
  { database := ⟨[record 1 1 0, record 2 2 0, record 3 1 1], [], [], [Sample.uuid 1, Sample.uuid 2]⟩
    outbox := [] }

def call : BreachCall := ⟨WipeSample.midnight 2, id, .dedup, .useColumn⟩

theorem references : db.References := by
  show ∀ r ∈ [record 1 1 0, record 2 2 0, record 3 1 1], r.applicationId ∈ [Sample.uuid 1, Sample.uuid 2]
  decide

end BreachSample

/-- The range of both days. -/
theorem flagsRange_iff_twoDays :
    (∃ row db', breakGlassRange BreachSample.call (WipeSample.midnight 0) (WipeSample.midnight 1) BreachSample.db =
        .ok (row, db') ∧ FlagsRange (WipeSample.midnight 0) (WipeSample.midnight 1) BreachSample.db row db') ↔
      ∀ r ∈ BreachSample.db.database.auditRecords, r.breachFlag = false →
        (∃ q ∈ BreachSample.db.database.auditRecords, q.inRange (WipeSample.midnight 0) (WipeSample.midnight 1) = true ∧
          q.applicationId = r.applicationId) →
          r.inRange (WipeSample.midnight 0) (WipeSample.midnight 1) = true :=
  flagsRange_iff rfl BreachSample.references

/-- The range of the second day: the record that the application has on the first day is flagged too. -/
theorem record_outside_range_flagged :
    ¬ ∀ (call : BreachCall) (start stop : DateTime) (db : BreachDb), call.variableConflict = .useColumn →
      db.References →
        ∃ row db', breakGlassRange call start stop db = .ok (row, db') ∧ FlagsRange start stop db row db' := by
  intro h
  obtain ⟨row, db', hrun, hflags⟩ :=
    h BreachSample.call (WipeSample.midnight 1) (WipeSample.midnight 1) BreachSample.db rfl BreachSample.references
  have hflagged : (breakGlassRange BreachSample.call (WipeSample.midnight 1) (WipeSample.midnight 1)
      BreachSample.db).toOption.map (fun r => r.2.database.auditRecords.map AuditRecord.breachFlag) =
      some [true, false, true] := by
    decide
  rw [hrun] at hflagged
  obtain ⟨r', rest, hrows, hr', -⟩ := List.map_eq_cons_iff.mp (Option.some.inj hflagged)
  have hfirst := hflags.flagged
  rw [hrows] at hfirst
  have hhead := (List.forall₂_cons.mp hfirst).1.mp (by rw [hr']; rfl)
  exact absurd hhead (by decide)

end ComplianceLoop
