import ComplianceLoop.Transition.Locks
import ComplianceLoop.Transition.Runs

/-!
# What can still happen

`CanReach C P s` says that some run leads from `s` to a state with the property, by steps of a kind `C`. Such runs are
put together with `next` and `bind`; `of_variant` is the rule of the variant: where the property can be reached or else
progress towards it, the property can be reached. `acquireAll_of_free` is about the locks that a run takes.
-/

set_option autoImplicit false

namespace Transition

universe u v

namespace System

variable {σ : Type u} {ℓ : Type v} {M : System σ ℓ}

theorem run_append {s t : σ} {ls : List ℓ} (ls' : List ℓ) (h : M.run s ls = some t) :
    M.run s (ls ++ ls') = M.run t ls' := by
  induction ls generalizing s with
  | nil =>
    obtain rfl := Option.some.inj h
    rfl
  | cons l ls ih =>
    obtain ⟨m, hm, h⟩ := run_cons_eq_some.mp h
    rw [List.cons_append, run, hm, Option.bind_some, ih h]

/-- A run of steps of this kind leads to a state with the property. -/
def CanReach (M : System σ ℓ) (C : ℓ → Prop) (P : σ → Prop) (s : σ) : Prop :=
  ∃ ls t, (∀ l ∈ ls, C l) ∧ M.run s ls = some t ∧ P t

namespace CanReach

variable {C : ℓ → Prop} {P Q I : σ → Prop} {s t : σ}

theorem here (h : P s) : M.CanReach C P s := ⟨[], s, List.forall_mem_nil _, rfl, h⟩

theorem next {l : ℓ} (hs : M.step s l = some t) (hl : C l) (h : M.CanReach C P t) : M.CanReach C P s := by
  obtain ⟨ls, u, hls, hrun, hu⟩ := h
  exact ⟨l :: ls, u, List.forall_mem_cons.mpr ⟨hl, hls⟩, run_cons_eq_some.mpr ⟨t, hs, hrun⟩, hu⟩

theorem bind (h : M.CanReach C Q s) (hq : ∀ t, Q t → M.CanReach C P t) : M.CanReach C P s := by
  obtain ⟨ls, t, hls, hrun, ht⟩ := h
  obtain ⟨ls', u, hls', hrun', hu⟩ := hq t ht
  exact ⟨ls ++ ls', u, List.forall_mem_append.mpr ⟨hls, hls'⟩, (run_append ls' hrun).trans hrun', hu⟩

/-- **The rule of the variant.** -/
theorem of_variant {μ : σ → Nat} (hstep : ∀ s, I s → M.CanReach C (fun t => P t ∨ I t ∧ μ t < μ s) s) (hs : I s) :
    M.CanReach C P s := by
  induction hn : μ s using Nat.strongRecOn generalizing s with
  | ind n ih =>
    refine (hstep s hs).bind fun t ht => ?_
    rcases ht with ht | ⟨hi, hlt⟩
    · exact here ht
    · exact ih (μ t) (hn ▸ hlt) hi rfl

end CanReach

end System

/-! ## Locks that are free -/

namespace LockTable

variable {κ : Type u} [DecidableEq κ] {L : LockTable κ} {k : κ} {p : Nat}

theorem isFree_iff : L.isFree k = true ↔ ∀ q, ¬ L.Holds k q := by
  simp [isFree, Holds]

theorem acquire_of_free (h : L.isFree k = true) : ∃ L', L.acquire k p = some L' := by
  unfold acquire
  split
  · exact ⟨L, rfl⟩
  · split
    · rename_i hk
      simp [isFree, hk] at h
    · exact ⟨_, rfl⟩

/-- The locks of keys that nobody holds can be taken, the first first. -/
theorem acquireAll_of_free : ∀ {ks : List κ} {L : LockTable κ}, (∀ k ∈ ks, ∀ q, q ≠ p → ¬ L.Holds k q) →
    ∃ L', acquireAll p ks L = some L'
  | [], L, _ => ⟨L, rfl⟩
  | k :: ks, L, h => by
    obtain ⟨hk, hks⟩ := List.forall_mem_cons.mp h
    have hfirst : ∃ M, L.acquire k p = some M := by
      by_cases hmine : L.Holds k p
      · exact ⟨L, if_pos hmine⟩
      · refine acquire_of_free (isFree_iff.mpr fun q hq => ?_)
        by_cases he : q = p
        · exact hmine (he ▸ hq)
        · exact hk q he hq
    obtain ⟨M, hM⟩ := hfirst
    obtain ⟨L', hL'⟩ := acquireAll_of_free fun k' hk' q hq hheld =>
      ((holds_acquire hM).mp hheld).elim (hks k' hk' q hq) fun he => hq he.2
    exact ⟨L', Option.bind_eq_some_iff.mpr ⟨M, hM, hL'⟩⟩

end LockTable

end Transition
