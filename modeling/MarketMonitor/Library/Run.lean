import Mathlib.Data.Nat.Init

/-!
# Runs

A run of a system : its states, and the event that takes each state to the next. A finite
run is one that stays at its last state, when the system has an event that does so.

`Run.invariant` is induction along a run ; `Run.forall_iff` splits a property of all the
states into a condition on every event.
-/

universe u v

/-- A property that passes from a number to the next exactly when a condition holds of the
number holds of all numbers exactly when the condition does. -/
theorem forall_iff_of_step {P Q : ℕ → Prop} (hstart : P 0)
    (hstep : ∀ n, P n → (P (n + 1) ↔ Q n)) : (∀ n, P n) ↔ ∀ n, Q n := by
  constructor
  · intro h n
    exact (hstep n (h n)).mp (h (n + 1))
  · intro h n
    induction n with
    | zero => exact hstart
    | succ n ih => exact (hstep n ih).mpr (h n)

variable {σ : Type u} {ι : Type v}

/-- The states of a run and the events between them. -/
structure Run (step : ι → σ → σ → Prop) where
  state : ℕ → σ
  event : ℕ → ι
  steps : ∀ n, step (event n) (state n) (state (n + 1))

namespace Run

variable {step : ι → σ → σ → Prop} (run : Run step) {P : σ → Prop}

/-- What holds at the start and is kept by every event holds in every state. -/
theorem invariant (hstart : P (run.state 0))
    (hstep : ∀ e s s', step e s s' → P s → P s') (n : ℕ) : P (run.state n) := by
  induction n with
  | zero => exact hstart
  | succ n ih => exact hstep _ _ _ (run.steps n) ih

/-- A property that an event keeps exactly when it meets a condition holds in every state
exactly when every event meets it. -/
theorem forall_iff {Q : ℕ → Prop} (hstart : P (run.state 0))
    (hstep : ∀ n, P (run.state n) → (P (run.state (n + 1)) ↔ Q n)) :
    (∀ n, P (run.state n)) ↔ ∀ n, Q n :=
  forall_iff_of_step hstart hstep

/-- What the steps between two states keep holds in the second when it holds in the first. -/
theorem holds_of_le {n m : ℕ} (hnm : n ≤ m) (hn : P (run.state n))
    (hstep : ∀ j, n ≤ j → j < m → P (run.state j) → P (run.state (j + 1))) :
    P (run.state m) := by
  induction m, hnm using Nat.le_induction with
  | base => exact hn
  | succ m hnm ih =>
    exact hstep m hnm m.lt_succ_self (ih fun j hj hjm => hstep j hj (Nat.lt_succ_of_lt hjm))

/-- The run of some events, when each of them determines the next state. -/
def ofEvents (next : ι → σ → σ) (start : σ) (events : ℕ → ι)
    (hstep : ∀ n s, step (events n) s (next (events n) s)) : Run step where
  state n := Nat.rec start (fun n s => next (events n) s) n
  event := events
  steps n := hstep n _

end Run
