import Mathlib.Data.List.Nodup

/-!
# Unique indexes

A table takes rows one after another, and a unique index refuses a row that agrees on its columns with one that is
there already. A partial index compares the rows of its predicate only. An empty table takes a list of rows when no
two of them clash (`acceptsRows_iff`).
-/

set_option autoImplicit false

namespace Transition

universe u v w

/-- An index; a partial one covers the rows of its predicate. -/
structure Index (ρ : Type u) (κ : Type v) where
  name : String
  columns : List κ
  unique : Bool := false
  covers : ρ → Bool := fun _ => true

variable {ρ : Type u} {κ : Type v} {β : Type w} [DecidableEq β] (value : ρ → κ → β)

namespace Index

/-- The index does not take both rows. -/
def Clash (i : Index ρ κ) (r s : ρ) : Prop :=
  i.unique = true ∧ i.covers r = true ∧ i.covers s = true ∧ ∀ c ∈ i.columns, value r c = value s c

instance (i : Index ρ κ) (r s : ρ) : Decidable (i.Clash value r s) :=
  inferInstanceAs (Decidable (_ ∧ _ ∧ _ ∧ ∀ c ∈ i.columns, value r c = value s c))

end Index

/-! ## Inserts -/

/-- A row is inserted, or the first index that refuses it is reported. -/
def insertRow (indexes : List (Index ρ κ)) (rows : List ρ) (r : ρ) : Except (Index ρ κ) (List ρ) :=
  match indexes.find? fun i => rows.any fun s => i.Clash value s r with
  | some i => .error i
  | none => .ok (rows ++ [r])

/-- Rows inserted one after another. -/
def insertRows (indexes : List (Index ρ κ)) : List ρ → List ρ → Except (Index ρ κ) (List ρ)
  | rows, [] => .ok rows
  | rows, r :: rs =>
    match insertRow value indexes rows r with
    | .error i => .error i
    | .ok rows => insertRows indexes rows rs

/-- An empty table takes all the rows. -/
def AcceptsRows (indexes : List (Index ρ κ)) (rows : List ρ) : Prop := ∃ t, insertRows value indexes [] rows = .ok t

variable {value} {indexes : List (Index ρ κ)} {rows : List ρ} {r : ρ}

theorem insertRow_eq_ok {t : List ρ} : insertRow value indexes rows r = .ok t ↔
    (∀ i ∈ indexes, ∀ s ∈ rows, ¬ i.Clash value s r) ∧ t = rows ++ [r] := by
  unfold insertRow
  cases h : indexes.find? fun i => rows.any fun s => i.Clash value s r with
  | some i =>
    have hi := List.find?_some h
    obtain ⟨s, hs, hc⟩ := List.any_eq_true.mp hi
    refine ⟨nofun, fun hnone => ?_⟩
    exact absurd (of_decide_eq_true hc) (hnone.1 i (List.mem_of_find?_eq_some h) s hs)
  | none =>
    rw [List.find?_eq_none] at h
    have hnone : ∀ i ∈ indexes, ∀ s ∈ rows, ¬ i.Clash value s r := fun i hi s hs hc =>
      h i hi (List.any_eq_true.mpr ⟨s, hs, decide_eq_true hc⟩)
    rw [Except.ok.injEq, and_iff_right hnone, eq_comm]

/-- **Rows are inserted when none clashes with one that is there or comes before it.** -/
theorem insertRows_eq_ok {rs t : List ρ} : insertRows value indexes rows rs = .ok t ↔
    (∀ i ∈ indexes, rs.Pairwise (fun r s => ¬ i.Clash value r s) ∧ ∀ s ∈ rows, ∀ r ∈ rs, ¬ i.Clash value s r) ∧
      t = rows ++ rs := by
  induction rs generalizing rows with
  | nil => simp [insertRows, eq_comm]
  | cons r rs ih =>
    have hstep : insertRows value indexes rows (r :: rs) = .ok t ↔
        (∀ i ∈ indexes, ∀ s ∈ rows, ¬ i.Clash value s r) ∧ insertRows value indexes (rows ++ [r]) rs = .ok t := by
      rw [insertRows]
      cases h : insertRow value indexes rows r with
      | error i =>
        refine ⟨nofun, fun hr => ?_⟩
        rw [insertRow_eq_ok.mpr ⟨hr.1, rfl⟩] at h
        cases h
      | ok rows' =>
        obtain ⟨hr, rfl⟩ := insertRow_eq_ok.mp h
        exact (and_iff_right hr).symm
    rw [hstep, ih, List.append_assoc, List.singleton_append, ← and_assoc]
    refine and_congr_left fun _ => ?_
    simp only [List.pairwise_cons, List.mem_append, List.mem_cons, or_imp, forall_and, forall_eq]
    tauto

/-- **An empty table takes the rows exactly when no two of them clash.** -/
theorem acceptsRows_iff :
    AcceptsRows value indexes rows ↔ ∀ i ∈ indexes, rows.Pairwise fun r s => ¬ i.Clash value r s := by
  simp [AcceptsRows, insertRows_eq_ok]

/-! ## Counting -/

/-- At most one row of a kind has each key exactly when no two rows of the kind have the same one. -/
theorem countP_key_le_one_iff {γ : Type w} [DecidableEq γ] (p : ρ → Bool) (key : ρ → γ) (rows : List ρ) :
    (∀ k, rows.countP (fun r => p r && key r = k) ≤ 1) ↔
      rows.Pairwise fun r s => p r = true → p s = true → key r ≠ key s := by
  have hcount : ∀ k, rows.countP (fun r => p r && key r = k) = ((rows.filter p).map key).count k := by
    intro k
    rw [List.count, List.countP_map, List.countP_filter]
    refine List.countP_congr fun r _ => ?_
    simp [and_comm]
  simp only [hcount]
  rw [← List.nodup_iff_count_le_one, List.Nodup, List.pairwise_map, List.pairwise_filter]

end Transition
