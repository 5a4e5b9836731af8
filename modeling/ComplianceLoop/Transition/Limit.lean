import Mathlib.Data.List.Nodup
import Mathlib.Data.List.Perm.Basic
import Mathlib.Order.Lattice

/-!
# The first rows in an order

`firstBy key size` takes the first rows in the order of a key that no two of them share. A row is among them if and only
if fewer than `size` rows are ahead of it (`mem_firstBy_iff`). So when two lists agree on the rows of one kind, they
select the same rows of that kind exactly when the rows of the other kind do not decide for any of them
(`filter_firstBy_eq_iff`).
-/

set_option autoImplicit false

namespace Transition

universe u v

variable {α : Type u} {κ : Type v} [LinearOrder κ] {key : α → κ} {size : Nat} {rows rows' : List α} {a : α}

/-- The first rows in the order of the key. -/
def firstBy (key : α → κ) (size : Nat) (rows : List α) : List α :=
  (rows.mergeSort fun a b => decide (key a ≤ key b)).take size

/-- How many rows come before a row. -/
def ahead (key : α → κ) (rows : List α) (a : α) : Nat := rows.countP (key · < key a)

/-- In a list in strict order a row is among the first ones if and only if not too many rows are ahead of it. -/
theorem mem_take_iff (h : rows.Pairwise (key · < key ·)) : a ∈ rows.take size ↔ a ∈ rows ∧ ahead key rows a < size := by
  induction rows generalizing size with
  | nil => simp
  | cons b rows ih =>
    obtain ⟨hb, hrest⟩ := List.pairwise_cons.mp h
    cases size with
    | zero => simp
    | succ size =>
      rw [List.take_succ_cons, List.mem_cons, List.mem_cons, ih hrest, ahead, ahead, List.countP_cons]
      constructor
      · rintro (rfl | ⟨ha, hlt⟩)
        · have hnone : rows.countP (key · < key a) = 0 :=
            List.countP_eq_zero.mpr fun c hc hlt => lt_asymm (hb c hc) (of_decide_eq_true hlt)
          have hself : ¬ decide (key a < key a) = true := fun hlt => lt_irrefl _ (of_decide_eq_true hlt)
          rw [hnone, if_neg hself]
          simp
        · simp only [hb a ha, ha, decide_true, if_true, or_true, true_and]
          omega
      · rintro ⟨rfl | ha, hlt⟩
        · exact .inl rfl
        · simp only [hb a ha, decide_true, if_true] at hlt
          exact .inr ⟨ha, by omega⟩

section

variable (h : (rows.map key).Nodup)
include h

/-- Rows without a common key are put into strict order. -/
theorem pairwise_mergeSort_key : (rows.mergeSort fun a b => decide (key a ≤ key b)).Pairwise (key · < key ·) := by
  have hle : (rows.mergeSort fun a b => decide (key a ≤ key b)).Pairwise fun a b => decide (key a ≤ key b) = true := by
    refine List.pairwise_mergeSort (fun a b c hab hbc => ?_) (fun a b => ?_) rows
    · exact decide_eq_true (le_trans (of_decide_eq_true hab) (of_decide_eq_true hbc))
    · simpa using le_total (key a) (key b)
  have hne : (rows.mergeSort fun a b => decide (key a ≤ key b)).Pairwise fun a b => key a ≠ key b :=
    List.pairwise_map.mp (((List.mergeSort_perm _ _).map key).nodup_iff.mpr h)
  exact (hle.and hne).imp fun hab => lt_of_le_of_ne (of_decide_eq_true hab.1) hab.2

theorem pairwise_firstBy (size : Nat) : (firstBy key size rows).Pairwise (key · < key ·) :=
  (pairwise_mergeSort_key h).sublist (List.take_sublist _ _)

/-- **A row is among the first ones if and only if not too many rows are ahead of it.** -/
theorem mem_firstBy_iff : a ∈ firstBy key size rows ↔ a ∈ rows ∧ ahead key rows a < size := by
  have hperm := List.mergeSort_perm rows fun a b => decide (key a ≤ key b)
  rw [firstBy, mem_take_iff (pairwise_mergeSort_key h), hperm.mem_iff, ahead, ahead, hperm.countP_eq]

end

/-- Two lists in strict order with the same rows are the same list. -/
theorem eq_of_pairwise_of_mem_iff (key : α → κ) (h : rows.Pairwise (key · < key ·))
    (h' : rows'.Pairwise (key · < key ·)) (hmem : ∀ a, a ∈ rows ↔ a ∈ rows') : rows = rows' := by
  have hnodup : ∀ {xs : List α}, xs.Pairwise (key · < key ·) → xs.Nodup := by
    intro xs hxs
    refine hxs.imp ?_
    rintro a b hab rfl
    exact lt_irrefl _ hab
  refine List.Perm.eq_of_pairwise (fun a b _ _ hab hba => absurd hba (lt_asymm hab)) h h' ?_
  exact (List.perm_ext_iff_of_nodup (hnodup h) (hnodup h')).mpr hmem

/-- **Which rows of one kind are selected does not depend on the others if and only if each of them has too many rows
ahead of it in both lists or in neither.** -/
theorem filter_firstBy_eq_iff {p : α → Bool} (h : (rows.map key).Nodup) (h' : (rows'.map key).Nodup)
    (hp : ∀ a, p a = true → (a ∈ rows ↔ a ∈ rows')) :
    (firstBy key size rows).filter p = (firstBy key size rows').filter p ↔
      ∀ a ∈ rows, p a = true → (ahead key rows a < size ↔ ahead key rows' a < size) := by
  constructor
  · intro heq a ha hpa
    have hmem : a ∈ (firstBy key size rows).filter p ↔ a ∈ (firstBy key size rows').filter p := by rw [heq]
    rw [List.mem_filter, List.mem_filter, mem_firstBy_iff h, mem_firstBy_iff h'] at hmem
    simpa [hpa, ha, (hp a hpa).mp ha] using hmem
  · intro hall
    refine eq_of_pairwise_of_mem_iff key ((pairwise_firstBy h size).filter p)
      ((pairwise_firstBy h' size).filter p) fun a => ?_
    rw [List.mem_filter, List.mem_filter, mem_firstBy_iff h, mem_firstBy_iff h']
    constructor
    · rintro ⟨⟨ha, hlt⟩, hpa⟩
      exact ⟨⟨(hp a hpa).mp ha, (hall a ha hpa).mp hlt⟩, hpa⟩
    · rintro ⟨⟨ha, hlt⟩, hpa⟩
      have ha' := (hp a hpa).mpr ha
      exact ⟨⟨ha', (hall a ha' hpa).mpr hlt⟩, hpa⟩

end Transition
