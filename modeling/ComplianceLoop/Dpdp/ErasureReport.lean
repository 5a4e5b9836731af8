import ComplianceLoop.Dpdp.DataSubjectHandler
import ComplianceLoop.Dpdp.RetentionEnforcer

/-!
# What an erasure request reports

An erasure request counts the applications that it wipes, and calls the erasure complete when none of the applicant's
applications had been wiped before. So its answer is false for an applicant whose data is gone already, at each
repetition of a request and after the nightly task (`erasures_truthful_iff`).
-/

set_option autoImplicit false

namespace ComplianceLoop

open PyLib

/-! ## The specification -/

/-- The rows that a statement changed. -/
def changedRows (before after : List Application) : Nat := (before.zip after).countP fun p => p.1 ≠ p.2

/-- The answer is true: the erasure is complete exactly when no application of the applicant holds a personal field, and
the applications that are counted are those that were changed. -/
structure ReportTruthful (req : ErasureRequest) (db : RetentionDb) (applicantId : Uuid) (r : ErasureResponse) :
    Prop where
  complete : r.erasureComplete = true ↔
    ∀ a ∈ (handleErasureRequest req db).2.applications, req.selects applicantId a = true → a.piiFields = []
  wiped : r.applicationsWiped = changedRows db.applications (handleErasureRequest req db).2.applications

/-- A request that is answered is answered truthfully. -/
def ErasureTruthful (req : ErasureRequest) (db : RetentionDb) : Prop :=
  ∀ applicantId r, Uuid.parse req.applicantId = some applicantId → (handleErasureRequest req db).1 = .ok r →
    ReportTruthful req db applicantId r

/-- No application of the applicant has been wiped, or one that is marked as wiped holds a personal field. -/
def FreshRequest (req : ErasureRequest) (db : RetentionDb) : Prop :=
  ∀ applicantId, Uuid.parse req.applicantId = some applicantId →
    (∀ a ∈ db.applications, req.selects applicantId a = true → a.retentionWiped = false) ∨
      ∃ a ∈ db.applications, req.selects applicantId a = true ∧ a.retentionWiped = true ∧ a.piiFields ≠ []

/-! ## One request -/

theorem wipe_ne {a : Application} (h : a.retentionWiped = false) (now : DateTime) : a ≠ a.wipe now := by
  intro he
  have hw := congrArg Application.retentionWiped he
  rw [h, Application.retentionWiped_wipe] at hw
  cases hw

/-- A row is among some rows of the table when its key is. -/
theorem RetentionDb.Keyed.mem_filter_id {db : RetentionDb} (hk : db.Keyed) {q : Application → Bool} {a : Application}
    (ha : a ∈ db.applications) : a.id ∈ (db.applications.filter q).map Application.id ↔ q a = true := by
  rw [List.mem_map]
  constructor
  · rintro ⟨b, hb, he⟩
    obtain ⟨hb, hq⟩ := List.mem_filter.mp hb
    exact hk.ext hb ha he ▸ hq
  · exact fun hq => ⟨a, List.mem_filter.mpr ⟨ha, hq⟩, rfl⟩

/-- Rows that are wiped by their keys are changed, and no others. -/
theorem changedRows_wipeRows {db : RetentionDb} (hk : db.Keyed) (now : DateTime) {q : Application → Bool}
    (hq : ∀ a, q a = true → a.retentionWiped = false) :
    changedRows db.applications (wipeRows now ((db.applications.filter q).map Application.id) db.applications) =
      (db.applications.filter q).length := by
  rw [changedRows, wipeRows, ← List.map_prod_left_eq_zip, List.countP_map, ← List.countP_eq_length_filter]
  refine List.countP_congr fun a ha => ?_
  have hmem : ((db.applications.filter q).map Application.id).contains a.id = true ↔ q a = true := by
    rw [List.contains_eq_mem, decide_eq_true_eq, hk.mem_filter_id ha]
  rw [Function.comp_apply, decide_eq_true_eq]
  by_cases hqa : q a = true
  · rw [if_pos (hmem.mpr hqa)]
    exact ⟨fun _ => hqa, fun _ => wipe_ne (hq a hqa) now⟩
  · rw [if_neg fun h => hqa (hmem.mp h)]
    exact ⟨fun h => absurd rfl h, fun h => absurd h hqa⟩

section

variable {req : ErasureRequest} {db : RetentionDb} {applicantId : Uuid} {r : ErasureResponse}

/-- The rows that a request wipes. -/
def ErasureRequest.wipes (req : ErasureRequest) (applicantId : Uuid) (a : Application) : Bool :=
  !a.retentionWiped && req.selects applicantId a

theorem wipes_iff {a : Application} :
    req.wipes applicantId a = true ↔ a.retentionWiped = false ∧ req.selects applicantId a = true := by
  rw [ErasureRequest.wipes, Bool.and_eq_true, Bool.not_eq_true']

/-- The answer to a request. -/
theorem handleErasureRequest_ok (hu : Uuid.parse req.applicantId = some applicantId)
    (h : (handleErasureRequest req db).1 = .ok r) :
    (r.erasureComplete = true ↔ ∀ a ∈ db.applications, req.selects applicantId a = true → a.retentionWiped = false) ∧
      r.applicationsWiped = (db.applications.filter (req.wipes applicantId)).length ∧
        (handleErasureRequest req db).2.applications =
          wipeRows req.now ((db.applications.filter (req.wipes applicantId)).map Application.id) db.applications := by
  have hfilter : (db.applications.filter (req.selects applicantId)).filter (!·.retentionWiped) =
      db.applications.filter (req.wipes applicantId) := List.filter_filter
  rw [handleErasureRequest_snd hu, hfilter]
  unfold handleErasureRequest at h
  simp only [hu] at h
  split at h
  · exact absurd h (raise_ne_ok _ _ _)
  · rw [foldl_eraseOne, hfilter] at h
    rw [← Except.ok.inj h]
    refine ⟨?_, List.length_map _, rfl⟩
    simp only [List.nil_append, List.length_map, decide_eq_true_eq, List.length_eq_zero_iff, List.filter_eq_nil_iff,
      List.mem_filter, Bool.not_eq_true, and_imp]

/-- A selected row that holds a personal field after the request was marked as wiped before, and is as it was. -/
theorem selected_after (hk : db.Keyed) {a : Application} :
    a ∈ wipeRows req.now ((db.applications.filter (req.wipes applicantId)).map Application.id) db.applications ∧
        req.selects applicantId a = true ∧ a.piiFields ≠ [] ↔
      a ∈ db.applications ∧ req.selects applicantId a = true ∧ a.retentionWiped = true ∧ a.piiFields ≠ [] := by
  rw [mem_wipeRows]
  constructor
  · rintro ⟨⟨ha, hid⟩ | ⟨b, -, -, rfl⟩, hs, hp⟩
    · refine ⟨ha, hs, ?_, hp⟩
      rw [hk.mem_filter_id ha, wipes_iff] at hid
      exact Bool.not_eq_false _ ▸ fun hw => hid ⟨hw, hs⟩
    · exact absurd (b.piiFields_wipe _) hp
  · rintro ⟨ha, hs, hw, hp⟩
    refine ⟨.inl ⟨ha, ?_⟩, hs, hp⟩
    rw [hk.mem_filter_id ha, wipes_iff]
    exact fun h => absurd (hw.symm.trans h.1) Bool.false_ne_true.symm

/-- A request that selects a row is answered. -/
theorem handleErasureRequest_answers (hu : Uuid.parse req.applicantId = some applicantId) {a : Application}
    (ha : a ∈ db.applications) (hs : req.selects applicantId a = true) :
    ∃ r, (handleErasureRequest req db).1 = .ok r := by
  have hne : ¬ (db.applications.filter (req.selects applicantId)).isEmpty = true := by
    rw [List.isEmpty_iff]
    exact List.ne_nil_of_mem (List.mem_filter.mpr ⟨ha, hs⟩)
  unfold handleErasureRequest
  simp only [hu]
  rw [if_neg hne]
  exact ⟨_, rfl⟩

/-- **The answer is true exactly when the request is fresh.** -/
theorem erasureTruthful_request_iff (hk : db.Keyed) : ErasureTruthful req db ↔ FreshRequest req db := by
  constructor
  · intro h applicantId hu
    by_cases hnone : ∀ a ∈ db.applications, req.selects applicantId a = true → a.retentionWiped = false
    · exact .inl hnone
    · right
      push Not at hnone
      obtain ⟨a, ha, hs, hw⟩ := hnone
      obtain ⟨r, hr⟩ := handleErasureRequest_answers hu ha hs
      obtain ⟨hcomplete, -, hafter⟩ := handleErasureRequest_ok hu hr
      have hdirty : ¬ ∀ b ∈ (handleErasureRequest req db).2.applications,
          req.selects applicantId b = true → b.piiFields = [] := fun hall =>
        hw (hcomplete.mp ((h applicantId r hu hr).complete.mpr hall) a ha hs)
      push Not at hdirty
      obtain ⟨b, hb, hsb, hpb⟩ := hdirty
      rw [hafter] at hb
      exact ⟨b, (selected_after hk).mp ⟨hb, hsb, hpb⟩⟩
  · intro h applicantId r hu hr
    obtain ⟨hcomplete, hwiped, hafter⟩ := handleErasureRequest_ok hu hr
    refine ⟨?_, ?_⟩
    · rw [hcomplete, hafter]
      constructor
      · intro hnone a ha hs
        by_contra hp
        obtain ⟨ha', -, hw, -⟩ := (selected_after hk).mp ⟨ha, hs, hp⟩
        exact absurd ((hnone a ha' hs).symm.trans hw) Bool.false_ne_true
      · intro hclean
        refine (h applicantId hu).resolve_right ?_
        rintro ⟨a, ha⟩
        obtain ⟨ha', hs, hp⟩ := (selected_after hk).mpr ha
        exact hp (hclean a ha' hs)
    · rw [hwiped, hafter]
      exact (changedRows_wipeRows hk req.now fun a hq => (wipes_iff.mp hq).1).symm

end

/-! ## Repeated requests -/

/-- The calls, each with the tables that it finds. -/
def erasureCalls (db : RetentionDb) : List ErasureRequest → List (ErasureRequest × RetentionDb)
  | [] => []
  | req :: reqs => (req, db) :: erasureCalls (handleErasureRequest req db).2 reqs

/-- A request leaves the keys alone. -/
theorem keyed_handleErasureRequest {db : RetentionDb} (hk : db.Keyed) (req : ErasureRequest) :
    (handleErasureRequest req db).2.Keyed := by
  cases hu : Uuid.parse req.applicantId with
  | none =>
    unfold handleErasureRequest
    rw [hu]
    exact hk
  | some applicantId =>
    rw [handleErasureRequest_snd hu, RetentionDb.Keyed, map_id_wipeRows]
    exact hk

theorem keyed_erasureCalls {db : RetentionDb} (hk : db.Keyed) {reqs : List ErasureRequest} :
    ∀ c ∈ erasureCalls db reqs, c.2.Keyed := by
  induction reqs generalizing db with
  | nil => exact List.forall_mem_nil _
  | cons req reqs ih => exact List.forall_mem_cons.mpr ⟨hk, ih (keyed_handleErasureRequest hk req)⟩

/-- **A repeated request is fresh only when an application that is marked as wiped holds a personal field.** -/
theorem fresh_repeat_iff {db : RetentionDb} (hk : db.Keyed) {req req' : ErasureRequest} {applicantId : Uuid}
    (hu : Uuid.parse req.applicantId = some applicantId) (hu' : Uuid.parse req'.applicantId = some applicantId)
    (hpan : req'.requestingPanHmac = req.requestingPanHmac) {a : Application} (ha : a ∈ db.applications)
    (hs : req.selects applicantId a = true) :
    FreshRequest req' (handleErasureRequest req db).2 ↔
      ∃ b ∈ db.applications, req.selects applicantId b = true ∧ b.retentionWiped = true ∧ b.piiFields ≠ [] := by
  obtain ⟨r, hr⟩ := handleErasureRequest_answers hu ha hs
  obtain ⟨-, -, hafter⟩ := handleErasureRequest_ok hu hr
  have hsel : req'.selects applicantId = req.selects applicantId := by
    unfold ErasureRequest.selects
    rw [hpan]
  have hmarked : ∀ b ∈ (handleErasureRequest req db).2.applications, req.selects applicantId b = true →
      b.retentionWiped = true := by
    intro b hb hsb
    rw [hafter] at hb
    rcases mem_wipeRows.mp hb with ⟨hb, hid⟩ | ⟨c, -, -, rfl⟩
    · rw [hk.mem_filter_id hb, wipes_iff] at hid
      exact Bool.not_eq_false _ ▸ fun hw => hid ⟨hw, hsb⟩
    · exact c.retentionWiped_wipe _
  have hstill : ∃ b ∈ (handleErasureRequest req db).2.applications, req.selects applicantId b = true := by
    rw [hafter]
    by_cases hw : a.id ∈ (db.applications.filter (req.wipes applicantId)).map Application.id
    · exact ⟨a.wipe req.now, mem_wipeRows.mpr (.inr ⟨a, ha, hw, rfl⟩), hs⟩
    · exact ⟨a, mem_wipeRows.mpr (.inl ⟨ha, hw⟩), hs⟩
  constructor
  · intro h
    rcases h applicantId hu' with hnone | ⟨b, hb, hsb, -, hp⟩
    · obtain ⟨b, hb, hsb⟩ := hstill
      rw [hsel] at hnone
      exact absurd ((hnone b hb hsb).symm.trans (hmarked b hb hsb)) Bool.false_ne_true
    · rw [hsel] at hsb
      rw [hafter] at hb
      exact ⟨b, (selected_after hk).mp ⟨hb, hsb, hp⟩⟩
  · rintro ⟨b, hb⟩ applicantId' hu''
    obtain rfl : applicantId = applicantId' := Option.some.inj (hu'.symm.trans hu'')
    obtain ⟨hb', hsb, hp⟩ := (selected_after hk).mpr hb
    rw [← hafter] at hb'
    exact .inr ⟨b, hb', hsel ▸ hsb, hb.2.2.1, hp⟩

/-- **In any sequence of requests the answers are true exactly when each request is fresh where it is made.** -/
theorem erasures_truthful_iff {db : RetentionDb} (hk : db.Keyed) (reqs : List ErasureRequest) :
    (∀ c ∈ erasureCalls db reqs, ErasureTruthful c.1 c.2) ↔ ∀ c ∈ erasureCalls db reqs, FreshRequest c.1 c.2 := by
  have heach : ∀ c ∈ erasureCalls db reqs, ErasureTruthful c.1 c.2 ↔ FreshRequest c.1 c.2 := fun c hc =>
    erasureTruthful_request_iff (keyed_erasureCalls hk c hc)
  exact ⟨fun h c hc => (heach c hc).mp (h c hc), fun h c hc => (heach c hc).mpr (h c hc)⟩

namespace WipeSample

/-- A request of the first applicant. -/
def erasure (n : Fin (2 ^ 128)) : ErasureRequest := ⟨(Uuid.mk 1).str, [], ⟨n⟩, midnight 2⟩

end WipeSample

/-- A first request of an applicant. -/
theorem erasures_truthful_iff_first :
    (∀ c ∈ erasureCalls WipeSample.db [WipeSample.erasure 8], ErasureTruthful c.1 c.2) ↔
      ∀ c ∈ erasureCalls WipeSample.db [WipeSample.erasure 8], FreshRequest c.1 c.2 :=
  erasures_truthful_iff WipeSample.keyed _

/-- The same request again: nothing is held, and the erasure is called incomplete. -/
theorem not_erasures_truthful : ¬∀ (db : RetentionDb) (reqs : List ErasureRequest), db.Keyed →
    ∀ c ∈ erasureCalls db reqs, ErasureTruthful c.1 c.2 := by
  intro h
  have hsecond := h WipeSample.db [WipeSample.erasure 8, WipeSample.erasure 9] WipeSample.keyed
    (WipeSample.erasure 9, (handleErasureRequest (WipeSample.erasure 8) WipeSample.db).2) (by simp [erasureCalls])
  have hparse : Uuid.parse (WipeSample.erasure 9).applicantId = some ⟨1⟩ := Uuid.parse_str _
  have hanswer : ((handleErasureRequest (WipeSample.erasure 9)
      (handleErasureRequest (WipeSample.erasure 8) WipeSample.db).2).1.toOption.map (·.erasureComplete)) =
        some false := by
    decide
  have hclean : ∀ a ∈ (handleErasureRequest (WipeSample.erasure 9)
      (handleErasureRequest (WipeSample.erasure 8) WipeSample.db).2).2.applications,
        (WipeSample.erasure 9).selects ⟨1⟩ a = true → a.piiFields = [] := by decide
  cases hr : (handleErasureRequest (WipeSample.erasure 9)
      (handleErasureRequest (WipeSample.erasure 8) WipeSample.db).2).1 with
  | error e =>
    rw [hr] at hanswer
    cases hanswer
  | ok r =>
    rw [hr] at hanswer
    have hflag : r.erasureComplete = false := Option.some.inj hanswer
    have htrue := (hsecond ⟨1⟩ r hparse hr).complete.mpr hclean
    exact absurd (hflag.symm.trans htrue) Bool.false_ne_true

end ComplianceLoop
