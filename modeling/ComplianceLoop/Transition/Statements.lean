import Mathlib.Data.List.Basic

/-!
# Bodies of statements, one of which may raise

A body is a chain of `statement`s in `Except σ σ`: the state after it, or the state in which a statement has raised. The
fault says which statement raises, if any; a body that does not reach it returns.
-/

set_option autoImplicit false

namespace Transition

variable {σ P : Type} [DecidableEq P]

/-- The statement `p`, with its effect on the state. -/
def statement (fault : Option P) (p : P) (effect : σ → σ) (s : σ) : Except σ σ :=
  if fault = some p then .error s else .ok (effect s)

/-- The state in which a body has returned or raised. -/
def stopped : Except σ σ → σ
  | .ok s => s
  | .error s => s

/-- Whether a body has raised. -/
def raised : Except σ σ → Bool
  | .ok _ => false
  | .error _ => true

@[simp] theorem stopped_ok (s : σ) : stopped (.ok s) = s := rfl

@[simp] theorem stopped_error (s : σ) : stopped (.error s) = s := rfl

@[simp] theorem raised_ok (s : σ) : raised (.ok s : Except σ σ) = false := rfl

@[simp] theorem raised_error (s : σ) : raised (.error s : Except σ σ) = true := rfl

@[simp] theorem statement_self (p : P) (effect : σ → σ) (s : σ) : statement (some p) p effect s = .error s :=
  if_pos rfl

@[simp] theorem statement_none (p : P) (effect : σ → σ) (s : σ) : statement none p effect s = .ok (effect s) := rfl

/-! ## What every statement keeps -/

variable {I : σ → Prop}

theorem stopped_statement {fault : Option P} {p : P} {effect : σ → σ} {s : σ} (hs : I s) (he : I (effect s)) :
    I (stopped (statement fault p effect s)) := by
  unfold statement
  split
  · exact hs
  · exact he

/-- **What every statement of a body keeps holds where the body stops.** -/
theorem stopped_bind {x : Except σ σ} {next : σ → Except σ σ} (hx : I (stopped x))
    (hnext : ∀ s, I s → I (stopped (next s))) : I (stopped (x >>= next)) := by
  cases x with
  | error s => exact hx
  | ok s => exact hnext s hx

end Transition
