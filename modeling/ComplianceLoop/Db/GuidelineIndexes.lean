import ComplianceLoop.PyLib.Uuid
import ComplianceLoop.Transition.UniqueIndexes

/-!
# The indexes of `guideline_versions`

The table is declared twice, in `models/guideline_version.py` and in the migrations. Both have the partial index that
keeps one active version of a circular. The model also has a unique constraint over the circular, the active flag and
the demo flag, which is not partial: it keeps one inactive version as well, so a database that is created from the
models does not take the history of a circular that was replaced twice (`sameHistories_iff`).
-/

set_option autoImplicit false

namespace ComplianceLoop

open PyLib Transition

/-! ## The table -/

/-- The columns that an index reads. -/
inductive GuidelineColumn where
  | id | circularReference | contentHash | affectedAgentTags | isActive | isDemo
  deriving DecidableEq

/-- A row of `guideline_versions`; none of the columns can be `NULL`. -/
structure GuidelineRow where
  id : Uuid
  circularReference : Text
  contentHash : Text
  affectedAgentTags : List Text
  isActive : Bool
  isDemo : Bool
  deriving DecidableEq

inductive ColumnValue where
  | uuid (u : Uuid)
  | text (t : Text)
  | array (ts : List Text)
  | boolean (b : Bool)
  deriving DecidableEq

namespace GuidelineRow

def value (r : GuidelineRow) : GuidelineColumn → ColumnValue
  | .id => .uuid r.id
  | .circularReference => .text r.circularReference
  | .contentHash => .text r.contentHash
  | .affectedAgentTags => .array r.affectedAgentTags
  | .isActive => .boolean r.isActive
  | .isDemo => .boolean r.isDemo

end GuidelineRow

abbrev GuidelineIndex := Index GuidelineRow GuidelineColumn

/-- `primary_key=True` of `id`. -/
def primaryKey : GuidelineIndex where
  name := "guideline_versions_pkey"
  columns := [.id]
  unique := true

/-- `ix_guideline_versions_active_circular`, which both declarations have. -/
def activeCircular : GuidelineIndex where
  name := "ix_guideline_versions_active_circular"
  columns := [.circularReference, .isDemo]
  unique := true
  covers := GuidelineRow.isActive

/-- The `UniqueConstraint` of the model. -/
def activePerCircular : GuidelineIndex where
  name := "uq_guideline_active_per_circular"
  columns := [.circularReference, .isActive, .isDemo]
  unique := true

def circularRef : GuidelineIndex where
  name := "ix_guideline_versions_circular_ref"
  columns := [.circularReference]

def demoFlag : GuidelineIndex where
  name := "ix_guideline_versions_is_demo"
  columns := [.isDemo]

def agentTagsGin : GuidelineIndex where
  name := "ix_guideline_versions_agent_tags_gin"
  columns := [.affectedAgentTags]

/-- The indexes of `GuidelineVersion`: those of the mixins and of `__table_args__`. -/
def modelIndexes : List GuidelineIndex :=
  [primaryKey, demoFlag] ++ [activePerCircular, activeCircular, agentTagsGin, circularRef]

namespace Migrations

/-- `guideline_versions` in `0001_initial_schema`. -/
def initialSchema : List GuidelineIndex := [primaryKey, circularRef, demoFlag, activeCircular]

/-- `guideline_versions` in `0002_add_gin_index_agent_tags`. -/
def addGinIndexAgentTags : List GuidelineIndex :=
  [agentTagsGin, { name := "ix_guideline_versions_content_hash", columns := [.contentHash] }]

end Migrations

/-- The indexes of the migrated table; the later migrations add none. -/
def migratedIndexes : List GuidelineIndex := Migrations.initialSchema ++ Migrations.addGinIndexAgentTags

/-! ## The specification -/

/-- Rows with different ids. -/
structure GuidelineHistory where
  rows : List GuidelineRow
  keyed : (rows.map GuidelineRow.id).Nodup

/-- At most one row with this active flag for each circular and demo flag. -/
def AtMostOne (active : Bool) (rows : List GuidelineRow) : Prop :=
  ∀ circularReference isDemo, rows.countP (fun r =>
    r.isActive = active && r.circularReference = circularReference && r.isDemo = isDemo) ≤ 1

/-- Both declarations accept the history exactly when it has at most one active row for each circular and demo flag. -/
structure SameHistories (h : GuidelineHistory) : Prop where
  same : AcceptsRows GuidelineRow.value modelIndexes h.rows ↔ AcceptsRows GuidelineRow.value migratedIndexes h.rows
  model : AcceptsRows GuidelineRow.value modelIndexes h.rows ↔ AtMostOne true h.rows
  migrated : AcceptsRows GuidelineRow.value migratedIndexes h.rows ↔ AtMostOne true h.rows

/-! ## What the indexes refuse -/

variable {r s : GuidelineRow} {rows : List GuidelineRow}

theorem primaryKey_clash : primaryKey.Clash GuidelineRow.value r s ↔ r.id = s.id := by
  simp [Index.Clash, primaryKey, GuidelineRow.value]

theorem activeCircular_clash : activeCircular.Clash GuidelineRow.value r s ↔
    r.isActive = true ∧ s.isActive = true ∧ r.circularReference = s.circularReference ∧ r.isDemo = s.isDemo := by
  simp [Index.Clash, activeCircular, GuidelineRow.value]

theorem activePerCircular_clash : activePerCircular.Clash GuidelineRow.value r s ↔
    r.circularReference = s.circularReference ∧ r.isActive = s.isActive ∧ r.isDemo = s.isDemo := by
  simp [Index.Clash, activePerCircular, GuidelineRow.value]

/-- An index that is not unique refuses nothing. -/
theorem pairwise_of_not_unique {i : GuidelineIndex} (h : i.unique = false) :
    rows.Pairwise fun r s => ¬ i.Clash GuidelineRow.value r s :=
  List.pairwise_of_forall fun _ _ hc => absurd (h.symm.trans hc.1) Bool.false_ne_true

theorem pairwise_primaryKey (h : GuidelineHistory) :
    h.rows.Pairwise fun r s => ¬ primaryKey.Clash GuidelineRow.value r s := by
  simp only [primaryKey_clash]
  exact List.pairwise_map.mp h.keyed

theorem atMostOne_iff {active : Bool} : AtMostOne active rows ↔ rows.Pairwise fun r s =>
    r.isActive = active → s.isActive = active →
      ¬ (r.circularReference = s.circularReference ∧ r.isDemo = s.isDemo) := by
  have hkey := countP_key_le_one_iff (fun r : GuidelineRow => decide (r.isActive = active))
    (fun r => (r.circularReference, r.isDemo)) rows
  simp only [Prod.forall, decide_eq_true_eq, Prod.mk.injEq, ne_eq, Bool.decide_and, ← Bool.and_assoc] at hkey
  exact hkey

/-- The partial index keeps one active row. -/
theorem pairwise_activeCircular_iff :
    (rows.Pairwise fun r s => ¬ activeCircular.Clash GuidelineRow.value r s) ↔ AtMostOne true rows := by
  rw [atMostOne_iff]
  refine List.Pairwise.iff fun r s => ?_
  rw [activeCircular_clash]
  tauto

/-- The unique constraint keeps one active and one inactive row. -/
theorem pairwise_activePerCircular_iff :
    (rows.Pairwise fun r s => ¬ activePerCircular.Clash GuidelineRow.value r s) ↔
      AtMostOne true rows ∧ AtMostOne false rows := by
  rw [atMostOne_iff, atMostOne_iff, ← List.pairwise_and_iff]
  refine List.Pairwise.iff fun r s => ?_
  rw [activePerCircular_clash]
  cases r.isActive <;> cases s.isActive <;> simp

/-! ## The two declarations -/

theorem accepts_migrated_iff (h : GuidelineHistory) :
    AcceptsRows GuidelineRow.value migratedIndexes h.rows ↔ AtMostOne true h.rows := by
  rw [acceptsRows_iff, ← pairwise_activeCircular_iff]
  constructor
  · intro hall
    exact hall _ (by simp [migratedIndexes, Migrations.initialSchema])
  · intro hactive i hi
    simp only [migratedIndexes, Migrations.initialSchema, Migrations.addGinIndexAgentTags, List.cons_append,
      List.nil_append, List.mem_cons, List.not_mem_nil, or_false] at hi
    rcases hi with rfl | rfl | rfl | rfl | rfl | rfl
    · exact pairwise_primaryKey h
    · exact pairwise_of_not_unique rfl
    · exact pairwise_of_not_unique rfl
    · exact hactive
    · exact pairwise_of_not_unique rfl
    · exact pairwise_of_not_unique rfl

theorem accepts_model_iff (h : GuidelineHistory) :
    AcceptsRows GuidelineRow.value modelIndexes h.rows ↔ AtMostOne true h.rows ∧ AtMostOne false h.rows := by
  rw [acceptsRows_iff, ← pairwise_activePerCircular_iff]
  constructor
  · intro hall
    exact hall _ (by simp [modelIndexes])
  · intro hactive i hi
    simp only [modelIndexes, List.cons_append, List.nil_append, List.mem_cons, List.not_mem_nil, or_false] at hi
    rcases hi with rfl | rfl | rfl | rfl | rfl | rfl
    · exact pairwise_primaryKey h
    · exact pairwise_of_not_unique rfl
    · exact hactive
    · exact pairwise_activeCircular_iff.mpr (pairwise_activePerCircular_iff.mp hactive).1
    · exact pairwise_of_not_unique rfl
    · exact pairwise_of_not_unique rfl

/-- A database that is created from the models holds two versions of a circular at most. -/
theorem two_versions_of_accepts_model {h : GuidelineHistory} (ha : AcceptsRows GuidelineRow.value modelIndexes h.rows)
    (circularReference : Text) (isDemo : Bool) :
    h.rows.countP (fun r => r.circularReference = circularReference && r.isDemo = isDemo) ≤ 2 := by
  obtain ⟨hactive, hinactive⟩ := (accepts_model_iff h).mp ha
  have hsplit := List.countP_eq_countP_filter_add h.rows
    (fun r => decide (r.circularReference = circularReference) && decide (r.isDemo = isDemo)) fun r => r.isActive
  have hof : ∀ active : Bool, (h.rows.filter fun r => r.isActive == active).countP (fun r =>
      decide (r.circularReference = circularReference) && decide (r.isDemo = isDemo)) ≤
        h.rows.countP fun r =>
          r.isActive = active && r.circularReference = circularReference && r.isDemo = isDemo := by
    intro active
    rw [List.countP_filter]
    exact List.countP_mono_left fun r _ hr => by simp_all
  have h1 := Nat.le_trans (hof true) (hactive circularReference isDemo)
  have h0 := Nat.le_trans (hof false) (hinactive circularReference isDemo)
  simp only [beq_true, beq_false] at h1 h0
  omega

/-- **The two declarations accept the same histories, those with one active row at most, exactly when a history with
one active row at most has one inactive row at most.** -/
theorem sameHistories_iff (h : GuidelineHistory) :
    SameHistories h ↔ (AtMostOne true h.rows → AtMostOne false h.rows) := by
  have hmodel := accepts_model_iff h
  have hmigrated := accepts_migrated_iff h
  constructor
  · rintro ⟨-, hm, -⟩ hactive
    exact (hmodel.mp (hm.mpr hactive)).2
  · intro himp
    have hm : AcceptsRows GuidelineRow.value modelIndexes h.rows ↔ AtMostOne true h.rows :=
      hmodel.trans (and_iff_left_of_imp himp)
    exact ⟨hm.trans hmigrated.symm, hm, hmigrated⟩

namespace GuidelineSample

def version (id : Fin (2 ^ 128)) (isActive : Bool) : GuidelineRow :=
  ⟨⟨id⟩, "RBI/2024-25/73".toList, Nat.toDigits 10 id, [], isActive, false⟩

/-- A circular that was replaced twice. -/
def history : GuidelineHistory where
  rows := [version 1 false, version 2 false, version 3 true]
  keyed := by decide

end GuidelineSample

/-- The model refuses the third version. -/
theorem not_sameHistories : ¬ ∀ h : GuidelineHistory, SameHistories h := by
  intro hall
  have hactive : AtMostOne true GuidelineSample.history.rows := atMostOne_iff.mpr (by decide)
  have hinactive := (accepts_model_iff _).mp ((hall GuidelineSample.history).model.mpr hactive)
  exact absurd (atMostOne_iff.mp hinactive.2) (by decide)

end ComplianceLoop
