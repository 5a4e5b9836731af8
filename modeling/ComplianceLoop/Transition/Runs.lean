import Mathlib.Data.List.Basic

/-!
# Runs of a labelled transition system

A system is a partial step function: `none` where a step is not enabled. `Always P` says that a property holds in every
state of a run, `Each G` that every step taken meets a condition on its label and the state before it. The rules are
`invariant_run` (what every step keeps holds at the end of a run) and `always_iff_each`: where, under an invariant, a
step keeps the property exactly when it meets the condition, the property holds throughout a run exactly when every step
of the run meets it. Where a step that does not meet the condition does not break the property at once, `always_of_each`
and `each_of_always` are the two halves: the second is for a run that has ended, and a state from which a run cannot end
without breaking the property.
-/

set_option autoImplicit false

namespace Transition

universe u v

/-- A labelled transition system. -/
structure System (σ : Type u) (ℓ : Type v) where
  step : σ → ℓ → Option σ

namespace System

variable {σ : Type u} {ℓ : Type v} (M : System σ ℓ)

/-- The state at the end of a run. -/
def run : σ → List ℓ → Option σ
  | s, [] => some s
  | s, l :: ls => (M.step s l).bind fun t => run t ls

/-- The property holds in every state of the run, up to the first step that is not enabled. -/
def Always (P : σ → Prop) : σ → List ℓ → Prop
  | s, [] => P s
  | s, l :: ls => P s ∧ ∀ t, M.step s l = some t → Always P t ls

/-- Every step taken in the run meets the condition. -/
def Each (G : σ → ℓ → Prop) : σ → List ℓ → Prop
  | _, [] => True
  | s, l :: ls => ∀ t, M.step s l = some t → G s l ∧ Each G t ls

/-- Whether every step taken meets a decidable condition can be computed. -/
instance decidableEach (G : σ → ℓ → Prop) [∀ s l, Decidable (G s l)] : ∀ s ls, Decidable (M.Each G s ls)
  | _, [] => isTrue trivial
  | s, l :: ls =>
    match h : M.step s l with
    | none => isTrue fun t ht => by cases h.symm.trans ht
    | some t =>
      have := decidableEach G t ls
      decidable_of_iff (G s l ∧ M.Each G t ls)
        ⟨fun hg t' ht' => Option.some.inj (h.symm.trans ht') ▸ hg, fun hg => hg t h⟩

variable {M} {P I : σ → Prop} {G : σ → ℓ → Prop}

theorem run_cons_eq_some {s t : σ} {l : ℓ} {ls : List ℓ} :
    M.run s (l :: ls) = some t ↔ ∃ m, M.step s l = some m ∧ M.run m ls = some t := Option.bind_eq_some_iff

/-- What every step keeps holds at the end of a run. -/
theorem invariant_run (hstep : ∀ {s l t}, I s → M.step s l = some t → I t) {s t : σ} {ls : List ℓ} (hs : I s)
    (hrun : M.run s ls = some t) : I t := by
  induction ls generalizing s with
  | nil => exact Option.some.inj hrun ▸ hs
  | cons l ls ih =>
    obtain ⟨m, hm, hrun⟩ := run_cons_eq_some.mp hrun
    exact ih (hstep hs hm) hrun

theorem Always.head {s : σ} {ls : List ℓ} (h : M.Always P s ls) : P s := by
  cases ls with
  | nil => exact h
  | cons l ls => exact h.1

/-- Properties that say the same of every state say the same of every run. -/
theorem always_congr {Q : σ → Prop} (h : ∀ s, P s ↔ Q s) (s : σ) (ls : List ℓ) : M.Always P s ls ↔ M.Always Q s ls := by
  induction ls generalizing s with
  | nil => exact h s
  | cons l ls ih => exact and_congr (h s) (forall_congr' fun t => imp_congr_right fun _ => ih t)

/-- A property of every state of a run holds in its last state. -/
theorem Always.last {s t : σ} {ls : List ℓ} (h : M.Always P s ls) (hrun : M.run s ls = some t) : P t := by
  induction ls generalizing s with
  | nil => exact Option.some.inj hrun ▸ h
  | cons l ls ih =>
    obtain ⟨m, hm, hrun⟩ := run_cons_eq_some.mp hrun
    exact ih (h.2 m hm) hrun

/-- **A property that a step keeps exactly when it meets the condition holds throughout a run exactly when every step
meets it.** -/
theorem always_iff_each (hstep : ∀ {s l t}, I s → P s → M.step s l = some t → I t ∧ (P t ↔ G s l)) {s : σ}
    {ls : List ℓ} (hi : I s) (hp : P s) : M.Always P s ls ↔ M.Each G s ls := by
  induction ls generalizing s with
  | nil => exact iff_of_true hp trivial
  | cons l ls ih =>
    constructor
    · rintro ⟨-, h⟩ t ht
      obtain ⟨hit, hg⟩ := hstep hi hp ht
      have hpt : P t := (h t ht).head
      exact ⟨hg.mp hpt, (ih hit hpt).mp (h t ht)⟩
    · intro h
      refine ⟨hp, fun t ht => ?_⟩
      obtain ⟨hit, hg⟩ := hstep hi hp ht
      obtain ⟨hc, hrest⟩ := h t ht
      exact (ih hit (hg.mpr hc)).mpr hrest

/-- What every step that meets the condition keeps holds throughout a run of such steps. -/
theorem always_of_each (hstep : ∀ {s l t}, I s → G s l → M.step s l = some t → I t) (hp : ∀ {s}, I s → P s) {s : σ}
    {ls : List ℓ} (hi : I s) (h : M.Each G s ls) : M.Always P s ls := by
  induction ls generalizing s with
  | nil => exact hp hi
  | cons l ls ih =>
    refine ⟨hp hi, fun t ht => ?_⟩
    obtain ⟨hc, hrest⟩ := h t ht
    exact ih (hstep hi hc ht) hrest

/-- A condition that all labels of a run meet. -/
theorem each_of_forall {C : ℓ → Prop} {s : σ} {ls : List ℓ} (h : ∀ l ∈ ls, C l) : M.Each (fun _ l => C l) s ls := by
  induction ls generalizing s with
  | nil => trivial
  | cons l ls ih => exact fun t _ => ⟨h l List.mem_cons_self, ih fun m hm => h m (List.mem_cons_of_mem l hm)⟩

variable {D : σ → Prop}

/-- A run from a doomed state to one that is not breaks the property. -/
theorem not_always_of_doomed (hstep : ∀ {s l t}, I s → M.step s l = some t → I t)
    (hdoom : ∀ {s l t}, I s → D s → M.step s l = some t → P t → D t) {s t : σ} {ls : List ℓ} (hi : I s) (hd : D s)
    (hrun : M.run s ls = some t) (hend : ¬ D t) : ¬ M.Always P s ls := by
  induction ls generalizing s with
  | nil => exact absurd (Option.some.inj hrun ▸ hd) hend
  | cons l ls ih =>
    obtain ⟨m, hm, hrun⟩ := run_cons_eq_some.mp hrun
    intro h
    have hpm : P m := (h.2 m hm).head
    exact ih (hstep hi hm) (hdoom hi hd hm hpm) hrun (h.2 m hm)

/-- Where a step that does not meet the condition dooms the run, every step of a run that has ended and kept the
property meets it. -/
theorem each_of_always (hstep : ∀ {s l t}, I s → M.step s l = some t → I t)
    (hdoom : ∀ {s l t}, I s → D s → M.step s l = some t → P t → D t)
    (hbad : ∀ {s l t}, I s → M.step s l = some t → ¬ G s l → D t) {s t : σ} {ls : List ℓ} (hi : I s)
    (hrun : M.run s ls = some t) (hend : ¬ D t) (h : M.Always P s ls) : M.Each G s ls := by
  induction ls generalizing s with
  | nil => trivial
  | cons l ls ih =>
    obtain ⟨m, hm, hrun⟩ := run_cons_eq_some.mp hrun
    intro m' hm'
    obtain rfl := Option.some.inj (hm.symm.trans hm')
    refine ⟨?_, ih (hstep hi hm) hrun (h.2 m hm)⟩
    by_contra hg
    exact not_always_of_doomed hstep hdoom (hstep hi hm) (hbad hi hm hg) hrun hend (h.2 m hm)

end System

end Transition
