import ComplianceLoop.Db.DemoRows
import ComplianceLoop.Dpdp.BreachResponse

/-!
# A breach response and the demo rows

Neither the procedure nor the lookup of the affected applications filters by the demo flag. So a response to a time
range depends on the demo rows, or changes one, as soon as there is an unflagged demo record or one that adds its
application to some range. On a server that refuses the names of the procedure, it does so as soon as a demo record is
the only record of some range, because the procedure returns for an empty range (`breachBlind_iff`).

The order of a `SELECT DISTINCT` is taken to depend on the set of the ids only, so that it is the same in two databases
with the same affected applications.
-/

set_option autoImplicit false

namespace ComplianceLoop

open PyLib

/-- The order depends on the set of the ids only. -/
def Distinct.Canonical (d : Distinct) : Prop := ∀ xs ys : List Uuid, (∀ u, u ∈ xs ↔ u ∈ ys) → d.rows xs = d.rows ys

/-- The ids in ascending order. -/
def Distinct.sorted : Distinct where
  rows xs := xs.dedup.mergeSort fun u v => decide (u.int ≤ v.int)
  nodup xs := (List.mergeSort_perm _ _).nodup_iff.mpr (List.nodup_dedup xs)
  mem_iff xs u := by rw [(List.mergeSort_perm _ _).mem_iff, List.mem_dedup]

theorem Distinct.canonical_sorted : Distinct.sorted.Canonical := by
  intro xs ys h
  have hpairwise : ∀ zs : List Uuid, (Distinct.sorted.rows zs).Pairwise fun u v => decide (u.int ≤ v.int) = true := by
    intro zs
    refine List.pairwise_mergeSort (fun u v w huv hvw => ?_) (fun u v => ?_) zs.dedup
    · exact decide_eq_true (le_trans (of_decide_eq_true huv) (of_decide_eq_true hvw))
    · simpa using le_total u.int v.int
  refine List.Perm.eq_of_pairwise (fun u v _ _ huv hvu => ?_) (hpairwise xs) (hpairwise ys) ?_
  · have hint : u.int = v.int := le_antisymm (of_decide_eq_true huv) (of_decide_eq_true hvu)
    cases u
    cases v
    exact congrArg Uuid.mk hint
  · refine (List.perm_ext_iff_of_nodup (Distinct.sorted.nodup xs) (Distinct.sorted.nodup ys)).mpr fun u => ?_
    rw [Distinct.sorted.mem_iff, Distinct.sorted.mem_iff, h u]

/-- The tables before and after a run on each of two databases. -/
structure BlindBreach (db₁ db₂ after₁ after₂ : BreachDb) : Prop where
  auditRecords : Blind AuditRecord.isDemo db₁.database.auditRecords db₂.database.auditRecords
    after₁.database.auditRecords after₂.database.auditRecords
  outbox : Blind NotificationOutbox.isDemo db₁.outbox db₂.outbox after₁.outbox after₂.outbox

/-- Each demo record is flagged, and its application has a record of the same time in the other table. -/
def DemoFlagged (rows rows' : List AuditRecord) : Prop :=
  ∀ r ∈ rows, r.isDemo = true → r.breachFlag = true ∧
    ∃ q ∈ rows', q.applicationId = r.applicationId ∧ q.writtenAt.instant = r.writtenAt.instant

/-- Each demo record has a record of the same time in the other table. -/
def DemoTimed (rows rows' : List AuditRecord) : Prop :=
  ∀ r ∈ rows, r.isDemo = true → ∃ q ∈ rows', q.writtenAt.instant = r.writtenAt.instant

/-- The demo records make no difference to a server with this setting. -/
def DemoUnseen (conflict : VariableConflict) (rows rows' : List AuditRecord) : Prop :=
  if conflict = .error then DemoTimed rows rows' else DemoFlagged rows rows'

/-- The arguments of a response to a time range. -/
def rangeArgs (start stop : DateTime) (severity : Text) : BreachArgs := ⟨none, some start, some stop, severity⟩

/-! ## The steps after the procedure -/

/-- What `breach_response` does once the procedure is committed. -/
def breachRest (run : BreachRun) (args : BreachArgs) (row : BreakGlassRow) (db : BreachDb) :
    Except PyExc BreachReport × BreachDb :=
  match run.freeze with
  | .error e => (.error e, db)
  | .ok frozen =>
    match getAffectedApplicationIds run args db with
    | .error e => (.error e, db)
    | .ok affectedIds =>
      match queueBoardNotification run row.recordsFlagged affectedIds args.severity db with
      | (.error e, db) => (.error e, db)
      | (.ok (), db) => (.ok (breachReport run args row frozen affectedIds), db)

section

variable {run : BreachRun} {start stop : DateTime} {severity : Text}

/-- The procedure, and what comes after it. -/
theorem breachResponse_range {db db' : BreachDb} {row : BreakGlassRow}
    (h : breakGlassProcedure run.call (rangeArgs start stop severity) db = .ok (row, db')) :
    breachResponse run (rangeArgs start stop severity) db =
      match run.commit with
      | .done => breachRest run (rangeArgs start stop severity) row db'
      | .refused => (raise .databaseError "connection failed".toList, db)
      | .unacknowledged => (raise .databaseError "connection failed".toList, db') := by
  unfold breachResponse
  rw [if_neg (by simp [rangeArgs])]
  unfold callBreakGlassProcedure
  rw [h]
  cases run.commit <;> rfl

/-- The notification of the Board. -/
theorem queueBoardNotification_blind (run : BreachRun) (severity : Text) {db₁ db₂ after₁ after₂ : BreachDb}
    (h : BlindBreach db₁ db₂ after₁ after₂) (count : Nat) (ids : List Text) :
    let board₁ := queueBoardNotification run count ids severity after₁
    let board₂ := queueBoardNotification run count ids severity after₂
    board₁.1 = board₂.1 ∧ BlindBreach db₁ db₂ board₁.2 board₂.2 := by
  have hqueued : BlindBreach db₁ db₂
      { after₁ with outbox := after₁.outbox ++ [boardNotification run count ids severity] }
      { after₂ with outbox := after₂.outbox ++ [boardNotification run count ids severity] } := by
    refine ⟨h.auditRecords, h.outbox.trans (Blind.append h.outbox.agree fun n hn => ?_)⟩
    rw [List.mem_singleton.mp hn]
    rfl
  unfold queueBoardNotification
  split
  · exact ⟨rfl, h⟩
  · cases run.board with
    | done => exact ⟨rfl, hqueued⟩
    | refused => exact ⟨rfl, h⟩
    | unacknowledged => exact ⟨rfl, hqueued⟩

/-- The steps after the procedure, on tables with the same affected applications. -/
theorem breachRest_blind {db₁ db₂ after₁ after₂ : BreachDb} {args : BreachArgs} (h : BlindBreach db₁ db₂ after₁ after₂)
    (hids : getAffectedApplicationIds run args after₁ = getAffectedApplicationIds run args after₂)
    (row : BreakGlassRow) :
    (breachRest run args row after₁).1 = (breachRest run args row after₂).1 ∧
      BlindBreach db₁ db₂ (breachRest run args row after₁).2 (breachRest run args row after₂).2 := by
  unfold breachRest
  rw [hids]
  cases run.freeze with
  | error e => exact ⟨rfl, h⟩
  | ok frozen =>
    cases getAffectedApplicationIds run args after₂ with
    | error e => exact ⟨rfl, h⟩
    | ok ids =>
      have hboard := queueBoardNotification_blind run args.severity h row.recordsFlagged ids
      dsimp only at hboard ⊢
      generalize queueBoardNotification run row.recordsFlagged ids args.severity after₁ = board₁ at hboard ⊢
      generalize queueBoardNotification run row.recordsFlagged ids args.severity after₂ = board₂ at hboard ⊢
      obtain ⟨outcome₁, last₁⟩ := board₁
      obtain ⟨outcome₂, last₂⟩ := board₂
      obtain ⟨rfl, hlast⟩ := hboard
      cases outcome₁ with
      | error e => exact ⟨rfl, hlast⟩
      | ok u => exact ⟨rfl, hlast⟩

end

/-! ## The procedure -/

section

variable {rows rows₁ rows₂ : List AuditRecord} {start stop : DateTime}

/-- The affected applications are the same when each record has one of its application and time in the other table. -/
theorem affectedApplications_congr {d : Distinct} (hd : d.Canonical)
    (h₁ : ∀ r ∈ rows₁, ∃ q ∈ rows₂, q.applicationId = r.applicationId ∧ q.writtenAt.instant = r.writtenAt.instant)
    (h₂ : ∀ r ∈ rows₂, ∃ q ∈ rows₁, q.applicationId = r.applicationId ∧ q.writtenAt.instant = r.writtenAt.instant) :
    affectedApplications d start stop rows₁ = affectedApplications d start stop rows₂ := by
  have hsub : ∀ {xs ys : List AuditRecord},
      (∀ r ∈ xs, ∃ q ∈ ys, q.applicationId = r.applicationId ∧ q.writtenAt.instant = r.writtenAt.instant) →
        ∀ u, u ∈ (xs.filter (AuditRecord.inRange start stop)).map AuditRecord.applicationId →
          u ∈ (ys.filter (AuditRecord.inRange start stop)).map AuditRecord.applicationId := by
    intro xs ys hxs u hu
    obtain ⟨r, hr, rfl⟩ := List.mem_map.mp hu
    obtain ⟨hr, hin⟩ := List.mem_filter.mp hr
    obtain ⟨q, hq, ha, hw⟩ := hxs r hr
    refine List.mem_map.mpr ⟨q, List.mem_filter.mpr ⟨hq, ?_⟩, ha⟩
    unfold AuditRecord.inRange at hin ⊢
    rw [hw]
    exact hin
  exact hd _ _ fun u => ⟨hsub h₁ u, hsub h₂ u⟩

/-- Flagging changes no application and no time. -/
theorem affectedApplications_flagRecords (d : Distinct) (now : DateTime) (apps : List Uuid) :
    affectedApplications d start stop (flagRecords now apps rows) = affectedApplications d start stop rows := by
  have hcolumns : ∀ r : AuditRecord,
      (if r.isUnflaggedOf apps then r.flagged now else r).applicationId = r.applicationId ∧
      (if r.isUnflaggedOf apps then r.flagged now else r).inRange start stop = r.inRange start stop := by
    intro r
    split <;> exact ⟨rfl, rfl⟩
  unfold affectedApplications flagRecords
  rw [List.filter_map, List.map_map]
  congr 1
  have hrange : AuditRecord.inRange start stop ∘ (fun r => if r.isUnflaggedOf apps then r.flagged now else r) =
      AuditRecord.inRange start stop := funext fun r => (hcolumns r).2
  rw [hrange]
  exact List.map_congr_left fun r _ => (hcolumns r).1

/-- No flagged record is counted. -/
theorem unflaggedCount_congr (h : rows₁.filter (!·.isDemo) = rows₂.filter (!·.isDemo))
    (hf₁ : ∀ r ∈ rows₁, r.isDemo = true → r.breachFlag = true)
    (hf₂ : ∀ r ∈ rows₂, r.isDemo = true → r.breachFlag = true) (apps : List Uuid) :
    unflaggedCount apps rows₁ = unflaggedCount apps rows₂ := by
  have hcount : ∀ xs : List AuditRecord, (∀ r ∈ xs, r.isDemo = true → r.breachFlag = true) →
      unflaggedCount apps xs = (xs.filter (!·.isDemo)).countP (AuditRecord.isUnflaggedOf apps) := by
    intro xs hxs
    rw [unflaggedCount, List.countP_filter]
    refine List.countP_congr fun r hr => ?_
    cases hd : r.isDemo with
    | false => simp
    | true => simp [AuditRecord.isUnflaggedOf, hxs r hr hd]
  rw [hcount rows₁ hf₁, hcount rows₂ hf₂, h]

/-- Flagging leaves a flagged record alone. -/
theorem blind_flagRecords (h : rows₁.filter (!·.isDemo) = rows₂.filter (!·.isDemo))
    (hf₁ : ∀ r ∈ rows₁, r.isDemo = true → r.breachFlag = true)
    (hf₂ : ∀ r ∈ rows₂, r.isDemo = true → r.breachFlag = true) (now : DateTime) (apps : List Uuid) :
    Blind AuditRecord.isDemo rows₁ rows₂ (flagRecords now apps rows₁) (flagRecords now apps rows₂) := by
  have hkept : ∀ r : AuditRecord, r.breachFlag = true →
      (if r.isUnflaggedOf apps then r.flagged now else r) = r := by
    intro r hr
    refine if_neg fun hu => ?_
    rw [(isUnflaggedOf_iff.mp hu).2] at hr
    cases hr
  refine Blind.map h ?_ (fun r hr hd => hkept r (hf₁ r hr hd)) fun r hr hd => hkept r (hf₂ r hr hd)
  intro r
  split <;> rfl

end

/-- The tables after the procedure. -/
def flaggedDb (call : BreachCall) (apps : List Uuid) (db : BreachDb) : BreachDb where
  database := { db.database with auditRecords := flagRecords call.now apps db.database.auditRecords }
  outbox := db.outbox ++ apps.map fun u => breachAlert call u (unflaggedCount [u] db.database.auditRecords)

theorem breakGlassProcedure_range {db : BreachDb} {call : BreachCall} (hc : call.variableConflict ≠ .error)
    (href : db.References) (start stop : DateTime) (severity : Text) :
    let apps := affectedApplications call.distinct start stop db.database.auditRecords
    breakGlassProcedure call (rangeArgs start stop severity) db =
      .ok (call.variableConflict.counts ⟨unflaggedCount apps db.database.auditRecords, apps.length⟩,
        flaggedDb call apps db) := by
  intro apps
  show (breakGlassRange call start stop db).map _ = _
  rw [breakGlassRange_of_ne_error hc _ _ href]
  rfl

/-- An empty range has no affected application. -/
theorem affectedApplications_eq_nil {d : Distinct} {start stop : DateTime} {rows : List AuditRecord} :
    affectedApplications d start stop rows = [] ↔ ∀ r ∈ rows, r.inRange start stop = false := by
  rw [List.eq_nil_iff_forall_not_mem]
  constructor
  · intro hnone r hr
    exact Bool.eq_false_iff.mpr fun hin => hnone r.applicationId (mem_affectedApplications.mpr ⟨r, hr, hin, rfl⟩)
  · intro hall u hu
    obtain ⟨r, hr, hin, -⟩ := mem_affectedApplications.mp hu
    rw [hall r hr] at hin
    cases hin

/-- When the server refuses its names, the procedure of a range with a record raises. -/
theorem breakGlassProcedure_refused {call : BreachCall} (hc : call.variableConflict = .error) {start stop : DateTime}
    (severity : Text) {db : BreachDb} (h : ¬ ∀ r ∈ db.database.auditRecords, r.inRange start stop = false) :
    breakGlassProcedure call (rangeArgs start stop severity) db = .error ambiguousName := by
  show (breakGlassRange call start stop db).map _ = _
  rw [breakGlassRange_error hc, if_neg (mt affectedApplications_eq_nil.mp h)]
  rfl

/-- That of an empty range returns. -/
theorem breakGlassProcedure_empty {call : BreachCall} (hc : call.variableConflict = .error) {start stop : DateTime}
    (severity : Text) {db : BreachDb} (h : ∀ r ∈ db.database.auditRecords, r.inRange start stop = false) :
    breakGlassProcedure call (rangeArgs start stop severity) db = .ok (⟨0, 0⟩, db) := by
  show (breakGlassRange call start stop db).map _ = _
  rw [breakGlassRange_error hc, if_pos (affectedApplications_eq_nil.mpr h)]
  rfl

/-! ## The response -/

section

variable {D : Type} {p₁ p₂ : ProductionTables D}

/-- On a server with this setting, a response to a time range does not depend on the demo rows, however far its requests
get. -/
def BreachBlind (conflict : VariableConflict) (p₁ p₂ : ProductionTables D) : Prop :=
  ∀ (run : BreachRun) (start stop : DateTime) (severity : Text), run.call.variableConflict = conflict →
    run.call.distinct.Canonical → run.distinct.Canonical →
    (breachResponse run (rangeArgs start stop severity) p₁.breach).1 =
        (breachResponse run (rangeArgs start stop severity) p₂.breach).1 ∧
      BlindBreach p₁.breach p₂.breach (breachResponse run (rangeArgs start stop severity) p₁.breach).2
        (breachResponse run (rangeArgs start stop severity) p₂.breach).2

variable {conflict : VariableConflict}

theorem BreachBlind.symm (h : BreachBlind conflict p₁ p₂) : BreachBlind conflict p₂ p₁ := by
  intro run start stop severity hc hd hd'
  obtain ⟨hresult, hrecords, houtbox⟩ := h run start stop severity hc hd hd'
  exact ⟨hresult.symm, ⟨hrecords.agree.symm, hrecords.demo₂, hrecords.demo₁⟩,
    ⟨houtbox.agree.symm, houtbox.demo₂, houtbox.demo₁⟩⟩

/-- With the demo records flagged, each record has one of its application and time in the other table. -/
theorem DemoFlagged.counterpart {rows rows' : List AuditRecord}
    (h : rows.filter (!·.isDemo) = rows'.filter (!·.isDemo)) (hf : DemoFlagged rows rows') :
    ∀ r ∈ rows, ∃ q ∈ rows', q.applicationId = r.applicationId ∧ q.writtenAt.instant = r.writtenAt.instant := by
  intro r hr
  cases hd : r.isDemo with
  | false => exact ⟨r, (mem_iff_of_agree h hd).mp hr, rfl, rfl⟩
  | true => exact (hf r hr hd).2

/-- A response does not depend on demo records that are flagged and add no application to any range. -/
theorem breachBlind_of_demoFlagged (hc : conflict ≠ .error) (h : p₁.Agree p₂) (hk₁ : p₁.Keyed) (hk₂ : p₂.Keyed)
    (hf₁ : DemoFlagged p₁.auditRecords p₂.auditRecords) (hf₂ : DemoFlagged p₂.auditRecords p₁.auditRecords) :
    BreachBlind conflict p₁ p₂ := by
  rintro run start stop severity rfl hd hd'
  have hflag₁ : ∀ r ∈ p₁.auditRecords, r.isDemo = true → r.breachFlag = true := fun r hr hdr => (hf₁ r hr hdr).1
  have hflag₂ : ∀ r ∈ p₂.auditRecords, r.isDemo = true → r.breachFlag = true := fun r hr hdr => (hf₂ r hr hdr).1
  have hsame : ∀ {d : Distinct}, d.Canonical → affectedApplications d start stop p₁.auditRecords =
      affectedApplications d start stop p₂.auditRecords := fun hc =>
    affectedApplications_congr hc (hf₁.counterpart h.auditRecords) (hf₂.counterpart h.auditRecords.symm)
  have hproc₁ := breakGlassProcedure_range hc hk₁.references start stop severity
  have hproc₂ := breakGlassProcedure_range hc hk₂.references start stop severity
  have happs : affectedApplications run.call.distinct start stop p₁.breach.database.auditRecords =
      affectedApplications run.call.distinct start stop p₂.breach.database.auditRecords := hsame hd
  have hcount := unflaggedCount_congr h.auditRecords hflag₁ hflag₂
  -- the procedure does the same in both databases
  rw [happs] at hproc₁
  generalize affectedApplications run.call.distinct start stop p₂.breach.database.auditRecords = apps at hproc₁ hproc₂
  have hafter : BlindBreach p₁.breach p₂.breach (flaggedDb run.call apps p₁.breach)
      (flaggedDb run.call apps p₂.breach) := by
    have halerts : (apps.map fun u => breachAlert run.call u (unflaggedCount [u] p₁.breach.database.auditRecords)) =
        apps.map fun u => breachAlert run.call u (unflaggedCount [u] p₂.breach.database.auditRecords) :=
      List.map_congr_left fun u _ => congrArg (breachAlert run.call u) (hcount [u])
    refine ⟨blind_flagRecords h.auditRecords hflag₁ hflag₂ run.call.now apps, ?_⟩
    show Blind _ _ _ (p₁.outbox ++ _) (p₂.outbox ++ _)
    rw [halerts]
    refine Blind.append h.outbox fun n hn => ?_
    obtain ⟨u, -, rfl⟩ := List.mem_map.mp hn
    rfl
  have hbefore : BlindBreach p₁.breach p₂.breach p₁.breach p₂.breach := ⟨.refl h.auditRecords, .refl h.outbox⟩
  have hids : getAffectedApplicationIds run (rangeArgs start stop severity) (flaggedDb run.call apps p₁.breach) =
      getAffectedApplicationIds run (rangeArgs start stop severity) (flaggedDb run.call apps p₂.breach) := by
    have hlookup : ∀ p : ProductionTables D, affectedApplications run.distinct start stop
        (flaggedDb run.call apps p.breach).database.auditRecords =
          affectedApplications run.distinct start stop p.auditRecords := fun p => affectedApplications_flagRecords _ _ _
    show run.lookup.map _ = run.lookup.map _
    rw [hlookup p₁, hlookup p₂, hsame hd']
  have hrow : unflaggedCount apps p₁.breach.database.auditRecords =
      unflaggedCount apps p₂.breach.database.auditRecords := hcount apps
  rw [breachResponse_range hproc₁, breachResponse_range hproc₂, hrow]
  cases run.commit with
  | done => exact breachRest_blind hafter hids _
  | refused => exact ⟨rfl, hbefore⟩
  | unacknowledged => exact ⟨rfl, hafter⟩

/-- With demo records of the times of other records, the same ranges are empty. -/
theorem DemoTimed.inRange_eq_false {rows rows' : List AuditRecord} (ht : DemoTimed rows rows')
    (h : rows.filter (!·.isDemo) = rows'.filter (!·.isDemo)) {start stop : DateTime}
    (hempty : ∀ r ∈ rows', r.inRange start stop = false) : ∀ r ∈ rows, r.inRange start stop = false := by
  intro r hr
  cases hd : r.isDemo with
  | false => exact hempty r ((mem_iff_of_agree h hd).mp hr)
  | true =>
    obtain ⟨q, hq, hw⟩ := ht r hr hd
    have hout := hempty q hq
    unfold AuditRecord.inRange at hout ⊢
    rw [← hw]
    exact hout

/-- A response whose procedure raises does nothing. -/
theorem breachResponse_of_error {run : BreachRun} {start stop : DateTime} {severity : Text} {db : BreachDb} {e : PyExc}
    (h : breakGlassProcedure run.call (rangeArgs start stop severity) db = .error e) :
    breachResponse run (rangeArgs start stop severity) db = (.error e, db) := by
  unfold breachResponse
  rw [if_neg (by simp [rangeArgs])]
  unfold callBreakGlassProcedure
  rw [h]

/-- On a server that refuses the procedure, a response does not depend on demo records of the times of other records. -/
theorem breachBlind_of_demoTimed (h : p₁.Agree p₂) (ht₁ : DemoTimed p₁.auditRecords p₂.auditRecords)
    (ht₂ : DemoTimed p₂.auditRecords p₁.auditRecords) : BreachBlind .error p₁ p₂ := by
  intro run start stop severity hc _ _
  have hbefore : BlindBreach p₁.breach p₂.breach p₁.breach p₂.breach := ⟨.refl h.auditRecords, .refl h.outbox⟩
  by_cases hempty : ∀ r ∈ p₁.auditRecords, r.inRange start stop = false
  · have hempty₂ : ∀ r ∈ p₂.auditRecords, r.inRange start stop = false := 
      ht₂.inRange_eq_false h.auditRecords.symm hempty
    have hnone : ∀ d : Distinct, affectedApplications d start stop p₁.breach.database.auditRecords = [] ∧
        affectedApplications d start stop p₂.breach.database.auditRecords = [] := fun d =>
      ⟨affectedApplications_eq_nil.mpr hempty, affectedApplications_eq_nil.mpr hempty₂⟩
    have hids : getAffectedApplicationIds run (rangeArgs start stop severity) p₁.breach =
        getAffectedApplicationIds run (rangeArgs start stop severity) p₂.breach := by
      show run.lookup.map _ = run.lookup.map _
      rw [(hnone run.distinct).1, (hnone run.distinct).2]
    rw [breachResponse_range (breakGlassProcedure_empty hc severity hempty),
      breachResponse_range (breakGlassProcedure_empty hc severity hempty₂)]
    cases run.commit with
    | done => exact breachRest_blind hbefore hids _
    | refused => exact ⟨rfl, hbefore⟩
    | unacknowledged => exact ⟨rfl, hbefore⟩
  · have hempty₂ : ¬ ∀ r ∈ p₂.auditRecords, r.inRange start stop = false :=
      fun hempty₂ => hempty (ht₁.inRange_eq_false h.auditRecords hempty₂)
    rw [breachResponse_of_error (breakGlassProcedure_refused hc severity hempty),
      breachResponse_of_error (breakGlassProcedure_refused hc severity hempty₂)]
    exact ⟨rfl, hbefore⟩

/-- A run that is not interrupted, and does not notify the Board. -/
def quietRun (conflict : VariableConflict) (now : DateTime) (id : Uuid) : BreachRun :=
  ⟨now, ⟨now, fun u => u, .sorted, conflict⟩, .done, .ok 0, .ok (), .sorted, [], now, id, .done, id⟩

theorem breachResponse_quietRun {db : BreachDb} (hc : conflict ≠ .error) (href : db.References) (now : DateTime)
    (id : Uuid) (start stop : DateTime) (severity : Text) :
    (breachResponse (quietRun conflict now id) (rangeArgs start stop severity) db).2 =
      flaggedDb (quietRun conflict now id).call (affectedApplications .sorted start stop db.database.auditRecords)
        db := by
  have hc' : (quietRun conflict now id).call.variableConflict ≠ .error := hc
  rw [breachResponse_range (breakGlassProcedure_range hc' href start stop severity)]
  rfl

/-- If no response depends on the demo rows, the demo records of the first database are flagged. -/
theorem demoFlagged_of_breachBlind (hc : conflict ≠ .error) (h : p₁.Agree p₂) (hk₁ : p₁.Keyed) (hk₂ : p₂.Keyed)
    (hblind : BreachBlind conflict p₁ p₂) : DemoFlagged p₁.auditRecords p₂.auditRecords := by
  intro r hr hd
  -- the range is the time of the record
  have hrun := hblind (quietRun conflict r.writtenAt r.id) r.writtenAt r.writtenAt [] rfl Distinct.canonical_sorted
    Distinct.canonical_sorted
  rw [breachResponse_quietRun hc hk₁.references, breachResponse_quietRun hc hk₂.references] at hrun
  obtain ⟨-, hrecords, houtbox⟩ := hrun
  have happ : r.applicationId ∈
      affectedApplications .sorted r.writtenAt r.writtenAt p₁.breach.database.auditRecords :=
    mem_affectedApplications.mpr ⟨r, hr, by simp [AuditRecord.inRange], rfl⟩
  constructor
  · by_contra hflag
    have hflagged : r.flagged r.writtenAt ∈ flagRecords r.writtenAt _ p₁.auditRecords :=
      List.mem_map.mpr ⟨r, hr, if_pos (isUnflaggedOf_iff.mpr ⟨happ, Bool.eq_false_of_not_eq_true hflag⟩)⟩
    have hkept : r.flagged r.writtenAt ∈ p₁.auditRecords.filter AuditRecord.isDemo :=
      hrecords.demo₁ ▸ List.mem_filter.mpr ⟨hflagged, hd⟩
    have heq := List.inj_on_of_nodup_map hk₁.auditRecords (List.mem_filter.mp hkept).1 hr rfl
    exact hflag (heq ▸ rfl)
  · -- the alert of the application is queued in the second database as well
    have hnew : ∀ (apps : List Uuid) (rows : List AuditRecord),
        (apps.map fun u =>
            breachAlert (quietRun conflict r.writtenAt r.id).call u (unflaggedCount [u] rows)).filter (!·.isDemo) =
          apps.map fun u => breachAlert (quietRun conflict r.writtenAt r.id).call u (unflaggedCount [u] rows) := by
      intro apps rows
      refine List.filter_eq_self.mpr fun n hn => ?_
      obtain ⟨u, -, rfl⟩ := List.mem_map.mp hn
      rfl
    have halerts : (p₁.outbox ++ _).filter (!·.isDemo) = (p₂.outbox ++ _).filter (!·.isDemo) := houtbox.agree
    rw [List.filter_append, List.filter_append, hnew, hnew, h.outbox] at halerts
    have hqueued := List.append_cancel_left halerts
    have hmem := List.mem_map_of_mem (f := fun u => breachAlert (quietRun conflict r.writtenAt r.id).call u
      (unflaggedCount [u] p₁.breach.database.auditRecords)) happ
    rw [hqueued] at hmem
    obtain ⟨u, hu, heq⟩ := List.mem_map.mp hmem
    have hur : u = r.applicationId := Option.some.inj (congrArg NotificationOutbox.recipientApplicationId heq)
    obtain ⟨q, hq, hin, hqa⟩ := mem_affectedApplications.mp hu
    simp only [AuditRecord.inRange, Bool.and_eq_true, decide_eq_true_eq] at hin
    exact ⟨q, hq, hqa.trans hur, le_antisymm hin.2 hin.1⟩

/-- If no response depends on the demo rows on a server that refuses the procedure, the demo records of the first
database have the times of records of the second one. -/
theorem demoTimed_of_breachBlind (hblind : BreachBlind .error p₁ p₂) : DemoTimed p₁.auditRecords p₂.auditRecords := by
  intro r hr hd
  -- the range is the time of the record
  obtain ⟨hresult, -⟩ := hblind (quietRun .error r.writtenAt r.id) r.writtenAt r.writtenAt [] rfl
    Distinct.canonical_sorted Distinct.canonical_sorted
  have hc : (quietRun .error r.writtenAt r.id).call.variableConflict = .error := rfl
  have hin : r.inRange r.writtenAt r.writtenAt = true := by simp [AuditRecord.inRange]
  have hsome : ¬ ∀ q ∈ p₁.auditRecords, q.inRange r.writtenAt r.writtenAt = false := fun hall => by
    rw [hall r hr] at hin
    cases hin
  by_contra hnone
  have hempty : ∀ q ∈ p₂.auditRecords, q.inRange r.writtenAt r.writtenAt = false := by
    intro q hq
    refine Bool.eq_false_iff.mpr fun hq' => hnone ⟨q, hq, ?_⟩
    simp only [AuditRecord.inRange, Bool.and_eq_true, decide_eq_true_eq] at hq'
    exact le_antisymm hq'.2 hq'.1
  rw [breachResponse_of_error (breakGlassProcedure_refused hc [] hsome),
    breachResponse_range (breakGlassProcedure_empty hc [] hempty)] at hresult
  cases hresult

/-- **A response to a time range does not depend on the demo rows if and only if every demo record is flagged and its
application has a record of the same time in the other database; on a server that refuses the procedure, if and only if
some record has its time there.** -/
theorem breachBlind_iff (h : p₁.Agree p₂) (hk₁ : p₁.Keyed) (hk₂ : p₂.Keyed) :
    BreachBlind conflict p₁ p₂ ↔
      DemoUnseen conflict p₁.auditRecords p₂.auditRecords ∧ DemoUnseen conflict p₂.auditRecords p₁.auditRecords := by
  unfold DemoUnseen
  by_cases hc : conflict = .error
  · subst hc
    rw [if_pos rfl, if_pos rfl]
    exact ⟨fun hblind => ⟨demoTimed_of_breachBlind hblind, demoTimed_of_breachBlind hblind.symm⟩,
      fun ht => breachBlind_of_demoTimed h ht.1 ht.2⟩
  · rw [if_neg hc, if_neg hc]
    constructor
    · intro hblind
      exact ⟨demoFlagged_of_breachBlind hc h hk₁ hk₂ hblind,
        demoFlagged_of_breachBlind hc h.symm hk₂ hk₁ hblind.symm⟩
    · exact fun hf => breachBlind_of_demoFlagged hc h hk₁ hk₂ hf.1 hf.2

end

end ComplianceLoop
