import Mathlib.Data.List.Basic
import Mathlib.Data.List.Nodup
import Mathlib.Data.List.Perm.Basic

/-!
# Sweeps in batches

A loop takes a batch of at most `size` items from what is pending, finishes the items that do not fail and counts both
kinds; the failed ones stay pending. It stops after the first batch that finishes nothing. The order in which a round
sees the pending items is a parameter.

A sweep ends (`sweep_ends`). It is exact in every order, finishing all items that do not fail and counting both kinds,
only where no item fails, or all fail and fit into one batch (`sweep_exact_iff`): with the failing items first, a round
either finishes nothing too early or sees failing items that the last round counts again.
-/

set_option autoImplicit false

namespace Transition

universe u

variable {α : Type u} {fails : α → Bool} {order : Nat → List α → List α} {size : Nat}

/-! ## Orders and batches -/

/-- Every round sees the pending items in some order. -/
def Orders (order : Nat → List α → List α) : Prop := ∀ k pending, (order k pending).Perm pending

/-- The sweep has finished every item that does not fail, and its counts are those of the pending items. -/
def Exact (fails : α → Bool) (pending : List α) (r : Nat × Nat × List α) : Prop :=
  r.1 = pending.countP (!fails ·) ∧ r.2.1 = pending.countP fails ∧ ∀ a ∈ r.2.2, fails a = true

section

variable (ho : Orders order) {k : Nat} {pending : List α}
include ho

theorem batch_subset : (order k pending).take size ⊆ pending := fun _ ha =>
  (ho k pending).mem_iff.mp (List.mem_of_mem_take ha)

theorem batch_nodup (h : pending.Nodup) : ((order k pending).take size).Nodup :=
  ((ho k pending).nodup_iff.mpr h).sublist (List.take_sublist _ _)

end

/-- A batch without an item that does not fail consists of failing items. -/
theorem fails_of_countP_eq_zero {batch : List α} (h : batch.countP (!fails ·) = 0) : ∀ a ∈ batch, fails a = true := by
  intro a ha
  have := List.countP_eq_zero.mp h a ha
  simpa using this

/-- Every round sees the failing items first. -/
def failingFirst (fails : α → Bool) : Nat → List α → List α := fun _ pending =>
  pending.filter fails ++ pending.filter (!fails ·)

theorem orders_failingFirst (fails : α → Bool) : Orders (failingFirst fails) := fun _ pending =>
  List.filter_append_perm fails pending

/-- With the failing items first, a round that does not take them all finishes nothing. -/
theorem countP_failingFirst_eq_zero {k : Nat} {pending : List α} (h : size ≤ pending.countP fails) :
    ((failingFirst fails k pending).take size).countP (!fails ·) = 0 := by
  rw [List.countP_eq_length_filter] at h
  rw [failingFirst, List.take_append_of_le_length h, List.countP_eq_zero]
  intro a ha
  simp [(List.mem_filter.mp (List.mem_of_mem_take ha)).2]

/-- A round that takes all failing items counts them all. -/
theorem countP_failingFirst {k : Nat} {pending : List α} (h : pending.countP fails ≤ size) :
    ((failingFirst fails k pending).take size).countP fails = pending.countP fails := by
  rw [List.countP_eq_length_filter] at h
  have hz : (((pending.filter (!fails ·)).take (size - (pending.filter fails).length)).countP fails) = 0 := by
    refine List.countP_eq_zero.mpr fun a ha => ?_
    have := (List.mem_filter.mp (List.mem_of_mem_take ha)).2
    simpa using this
  rw [failingFirst, List.take_append, List.take_of_length_le h, List.countP_append, hz, List.countP_filter,
    Nat.add_zero]
  exact List.countP_congr fun a _ => by simp

/-! ## The loop -/

variable [DecidableEq α]

/-- What stays pending after a batch. -/
def remaining (fails : α → Bool) (batch pending : List α) : List α :=
  pending.filter fun a => !batch.contains a || fails a

/-- The rounds from the `k`-th on: how many items were finished, how many failures were counted, and what is left. -/
def sweep (fails : α → Bool) (order : Nat → List α → List α) (size : Nat) :
    Nat → Nat → List α → Option (Nat × Nat × List α)
  | 0, _, _ => none
  | fuel + 1, k, pending =>
    let batch := (order k pending).take size
    if batch.countP (!fails ·) = 0 then some (0, batch.countP fails, remaining fails batch pending)
    else
      (sweep fails order size fuel (k + 1) (remaining fails batch pending)).map fun r =>
        (batch.countP (!fails ·) + r.1, batch.countP fails + r.2.1, r.2.2)

/-! ## One batch -/

theorem mem_remaining {batch pending : List α} {a : α} :
    a ∈ remaining fails batch pending ↔ a ∈ pending ∧ (a ∉ batch ∨ fails a = true) := by
  simp [remaining]

theorem nodup_remaining {batch pending : List α} (h : pending.Nodup) : (remaining fails batch pending).Nodup :=
  h.filter _

/-- The failing items stay pending. -/
theorem countP_remaining_fails (batch pending : List α) :
    (remaining fails batch pending).countP fails = pending.countP fails := by
  rw [remaining, List.countP_filter]
  refine List.countP_congr fun a _ => ?_
  simp +contextual

/-- The others are finished in the batch or stay pending. -/
theorem countP_remaining {batch pending : List α} (hp : pending.Nodup) (hb : batch.Nodup) (hs : batch ⊆ pending) :
    batch.countP (!fails ·) + (remaining fails batch pending).countP (!fails ·) = pending.countP (!fails ·) := by
  have hperm : (pending.filter batch.contains).Perm batch := by
    refine (List.perm_ext_iff_of_nodup (hp.filter _) hb).mpr fun a => ?_
    rw [List.mem_filter, List.contains_iff_mem]
    exact ⟨And.right, fun h => ⟨hs h, h⟩⟩
  rw [List.countP_eq_countP_filter_add pending _ batch.contains, hperm.countP_eq, remaining, List.countP_filter,
    List.countP_filter]
  congr 1
  refine List.countP_congr fun a _ => ?_
  cases fails a <;> simp

/-- A batch that finishes nothing leaves everything pending. -/
theorem remaining_of_countP_eq_zero {batch pending : List α} (h : batch.countP (!fails ·) = 0) :
    remaining fails batch pending = pending := by
  refine List.filter_eq_self.mpr fun a _ => ?_
  by_cases ha : a ∈ batch
  · rw [fails_of_countP_eq_zero h a ha, Bool.or_true]
  · rw [List.contains_eq_mem, decide_eq_false ha]
    rfl

/-! ## All rounds -/

/-- **Every sweep ends**: each round but the last finishes an item. -/
theorem sweep_ends (ho : Orders order) {fuel k : Nat} {pending : List α} (hn : pending.Nodup)
    (hf : pending.countP (!fails ·) < fuel) : ∃ r, sweep fails order size fuel k pending = some r := by
  induction fuel generalizing k pending with
  | zero => exact absurd hf (Nat.not_lt_zero _)
  | succ fuel ih =>
    rw [sweep]
    split
    · exact ⟨_, rfl⟩
    · rename_i hd
      have hc : ((order k pending).take size).countP (!fails ·) +
          (remaining fails ((order k pending).take size) pending).countP (!fails ·) = pending.countP (!fails ·) :=
        countP_remaining hn (batch_nodup ho hn) (batch_subset ho)
      have hrest : (remaining fails ((order k pending).take size) pending).Nodup := nodup_remaining hn
      obtain ⟨r, hr⟩ := ih (k := k + 1) hrest (by omega)
      rw [hr]
      exact ⟨_, rfl⟩

/-- A sweep over a failing item counts a failure. -/
theorem errors_pos (ho : Orders order) (hsize : 0 < size) {fuel k : Nat} {pending : List α} {r : Nat × Nat × List α}
    (hx : ∃ a ∈ pending, fails a = true) (h : sweep fails order size fuel k pending = some r) : 0 < r.2.1 := by
  induction fuel generalizing k pending r with
  | zero => cases h
  | succ fuel ih =>
    rw [sweep] at h
    split at h
    · rename_i hd
      obtain rfl := Option.some.inj h
      obtain ⟨a, ha, -⟩ := hx
      show 0 < ((order k pending).take size).countP fails
      rw [List.countP_eq_length.mpr (fails_of_countP_eq_zero hd), List.length_take, (ho k pending).length_eq]
      have := List.length_pos_of_mem ha
      omega
    · obtain ⟨r', hr', rfl⟩ := Option.map_eq_some_iff.mp h
      obtain ⟨a, ha, hfa⟩ := hx
      have := ih ⟨a, mem_remaining.mpr ⟨ha, .inr hfa⟩, hfa⟩ hr'
      show 0 < _ + r'.2.1
      omega

/-- Where no item fails the sweep is exact. -/
theorem exact_of_none_fail (ho : Orders order) (hsize : 0 < size) {fuel k : Nat} {pending : List α}
    {r : Nat × Nat × List α} (hn : pending.Nodup) (hg : ∀ a ∈ pending, fails a = false)
    (h : sweep fails order size fuel k pending = some r) : Exact fails pending r := by
  induction fuel generalizing k pending r with
  | zero => cases h
  | succ fuel ih =>
    have hsub : (order k pending).take size ⊆ pending := batch_subset ho
    rw [sweep] at h
    split at h
    · rename_i hd
      obtain rfl := Option.some.inj h
      have hb : (order k pending).take size = [] := by
        refine List.eq_nil_iff_forall_not_mem.mpr fun a ha => ?_
        have := fails_of_countP_eq_zero hd a ha
        rw [hg a (hsub ha)] at this
        cases this
      have hnil : pending = [] := by
        have hl : (order k pending).length = pending.length := (ho k pending).length_eq
        rw [List.take_eq_nil_iff] at hb
        rcases hb with h0 | h0
        · omega
        · rw [h0] at hl
          exact List.length_eq_zero_iff.mp hl.symm
      rw [hb, hnil]
      exact ⟨rfl, rfl, fun a ha => nomatch ha⟩
    · obtain ⟨r', hr', rfl⟩ := Option.map_eq_some_iff.mp h
      obtain ⟨h1, h2, h3⟩ := ih (nodup_remaining hn) (fun a ha => hg a (mem_remaining.mp ha).1) hr'
      have hb : ((order k pending).take size).countP fails = 0 :=
        List.countP_eq_zero.mpr fun a ha => by rw [hg a (hsub ha)]; exact Bool.false_ne_true
      refine ⟨?_, ?_, h3⟩
      · show _ + r'.1 = _
        rw [h1, countP_remaining hn (batch_nodup ho hn) hsub]
      · show _ + r'.2.1 = _
        rw [h2, hb, countP_remaining_fails, Nat.zero_add]

/-- Where every item fails and one batch takes them all, the sweep is exact. -/
theorem exact_of_all_fail (ho : Orders order) {fuel k : Nat} {pending : List α} {r : Nat × Nat × List α}
    (hb : ∀ a ∈ pending, fails a = true) (hs : pending.length ≤ size)
    (h : sweep fails order size fuel k pending = some r) : Exact fails pending r := by
  have hgood : pending.countP (!fails ·) = 0 := List.countP_eq_zero.mpr fun a ha => by simp [hb a ha]
  cases fuel with
  | zero => cases h
  | succ fuel =>
    have ht : (order k pending).take size = order k pending :=
      List.take_of_length_le ((ho k pending).length_eq ▸ hs)
    rw [sweep, ht, if_pos ((ho k pending).countP_eq _ ▸ hgood)] at h
    obtain rfl := Option.some.inj h
    exact ⟨hgood.symm, (ho k pending).countP_eq _, fun a ha => hb a (mem_remaining.mp ha).1⟩

/-- **A sweep with the failing items first is exact only where none fails, or all fail and fit into one batch.** -/
theorem of_exact_failingFirst {fuel k : Nat} {pending : List α} {r : Nat × Nat × List α}
    (h : sweep fails (failingFirst fails) size fuel k pending = some r) (he : Exact fails pending r) :
    ((∀ a ∈ pending, fails a = false) ∧ (pending = [] ∨ 0 < size)) ∨
      ((∀ a ∈ pending, fails a = true) ∧ pending.length ≤ size) := by
  cases fuel with
  | zero => cases h
  | succ fuel =>
    obtain ⟨h1, h2, h3⟩ := he
    rw [sweep] at h
    split at h
    · rename_i hd
      obtain rfl := Option.some.inj h
      have h3 : ∀ a ∈ remaining fails ((failingFirst fails k pending).take size) pending, fails a = true := h3
      rw [remaining_of_countP_eq_zero hd] at h3
      refine .inr ⟨h3, ?_⟩
      have h2' : ((failingFirst fails k pending).take size).countP fails = pending.countP fails := h2
      rw [List.countP_eq_length.mpr (fails_of_countP_eq_zero hd), List.countP_eq_length.mpr h3,
        List.length_take, (orders_failingFirst fails k pending).length_eq] at h2'
      omega
    · rename_i hd
      obtain ⟨r', hr', rfl⟩ := Option.map_eq_some_iff.mp h
      have hlt : pending.countP fails < size := by
        by_contra hle
        exact hd (countP_failingFirst_eq_zero (Nat.le_of_not_lt hle))
      left
      have hsize : 0 < size := by omega
      refine ⟨fun a ha => ?_, .inr hsize⟩
      have h2' : ((failingFirst fails k pending).take size).countP fails + r'.2.1 = pending.countP fails := h2
      rw [countP_failingFirst (Nat.le_of_lt hlt)] at h2'
      -- the failures of the first round are counted again in the last one
      by_contra hfa
      have hfa : fails a = true := by simpa using hfa
      have := errors_pos (orders_failingFirst fails) hsize ⟨a, mem_remaining.mpr ⟨ha, .inr hfa⟩, hfa⟩ hr'
      omega

/-- **A sweep is exact in every order if and only if no item fails, or all fail and fit into one batch.** -/
theorem sweep_exact_iff {fuel k : Nat} {pending : List α} (hn : pending.Nodup)
    (hf : pending.countP (!fails ·) < fuel) :
    (∀ order, Orders order → ∃ r, sweep fails order size fuel k pending = some r ∧ Exact fails pending r) ↔
      ((∀ a ∈ pending, fails a = false) ∧ (pending = [] ∨ 0 < size)) ∨
        ((∀ a ∈ pending, fails a = true) ∧ pending.length ≤ size) := by
  constructor
  · intro h
    obtain ⟨r, hr, he⟩ := h _ (orders_failingFirst fails)
    exact of_exact_failingFirst hr he
  · intro h order ho
    obtain ⟨r, hr⟩ : ∃ r, sweep fails order size fuel k pending = some r := sweep_ends ho hn hf
    refine ⟨r, hr, ?_⟩
    rcases h with ⟨hg, rfl | hsize⟩ | ⟨hb, hs⟩
    · exact exact_of_all_fail ho (fun a ha => nomatch ha) (Nat.zero_le _) hr
    · exact exact_of_none_fail ho hsize hn hg hr
    · exact exact_of_all_fail ho hb hs hr

end Transition
