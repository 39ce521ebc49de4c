import MarketMonitor.Library.Run

/-!
# Leases on a job

A job is tried again until it is closed, and whoever tries it holds it meanwhile. Taking
a job does not ask the holder, so that a holder may lose it without notice : it records
an attempt only while it still holds the job.

The row of a job is of any type; `hold` reads off it who holds the job. A closed job
stays as it is (`eq_of_closed`), and one who does not hold a job gets hold of it again
only by taking it (`not_held_of_no_take`).
-/

namespace Lease

variable {ρ ω α : Type}

/-- Who holds a job. -/
inductive Hold (ω : Type) where
  | waiting
  | held (owner : ω)
  | closed
  deriving DecidableEq

/-- A job : its row, and its attempts in order. -/
@[ext] structure Job (ρ α : Type) where
  row : ρ
  attempts : List α

/-- What may happen to a job. -/
inductive Move (ω α : Type) where
  | idle
  | wait
  | take (owner : ω)
  | finish (owner : ω) (attempt : α)
  | close

/-- What each move does. -/
inductive Step (hold : ρ → Hold ω) : Move ω α → Job ρ α → Job ρ α → Prop where
  | idle (job : Job ρ α) : Step hold .idle job job
  | wait {r r' : ρ} (attempts : List α) (h : hold r = .waiting) (h' : hold r' = .waiting) :
      Step hold .wait ⟨r, attempts⟩ ⟨r', attempts⟩
  | take {r r' : ρ} {owner : ω} (attempts : List α) (h : hold r ≠ .closed)
      (h' : hold r' = .held owner) : Step hold (.take owner) ⟨r, attempts⟩ ⟨r', attempts⟩
  | finish {r r' : ρ} {owner : ω} {attempt : α} (attempts : List α) (h : hold r = .held owner)
      (h' : ∀ owner', hold r' ≠ .held owner') :
      Step hold (.finish owner attempt) ⟨r, attempts⟩ ⟨r', attempts ++ [attempt]⟩
  | close {r r' : ρ} (attempts : List α) (h : hold r ≠ .closed) (h' : hold r' = .closed) :
      Step hold .close ⟨r, attempts⟩ ⟨r', attempts⟩

variable {hold : ρ → Hold ω} {move : Move ω α} {job job' : Job ρ α} {owner : ω}

/-! ## One move -/

/-- Nothing happens to a closed job. -/
theorem Step.eq_of_closed (h : Step hold move job job') (hclosed : hold job.row = .closed) :
    job' = job := by
  cases h with
  | idle => rfl
  | wait _ h => rw [h] at hclosed; cases hclosed
  | take _ h => exact absurd hclosed h
  | finish _ h => rw [h] at hclosed; cases hclosed
  | close _ h => exact absurd hclosed h

/-- A job is held by its holder, or by who has just taken it. -/
theorem Step.held (h : Step hold move job job') (hheld : hold job'.row = .held owner) :
    hold job.row = .held owner ∨ move = .take owner := by
  cases h with
  | idle => exact Or.inl hheld
  | wait _ _ h' => rw [h'] at hheld; cases hheld
  | take _ _ h' =>
    rw [h'] at hheld
    cases hheld
    exact Or.inr rfl
  | finish _ _ h' => exact absurd hheld (h' owner)
  | close _ _ h' => rw [h'] at hheld; cases hheld

/-- Only the holder records an attempt. -/
theorem Step.holder {attempt : α} (h : Step hold (.finish owner attempt) job job') :
    hold job.row = .held owner := by
  cases h with
  | finish _ h => exact h

/-- The attempts of a job grow at their end, one by one. -/
theorem Step.attempts (h : Step hold move job job') :
    job'.attempts = job.attempts ∨
      ∃ owner attempt, move = .finish owner attempt ∧
        job'.attempts = job.attempts ++ [attempt] := by
  cases h with
  | finish => exact Or.inr ⟨_, _, rfl, rfl⟩
  | _ => exact Or.inl rfl

/-- A held job that nobody takes, finishes or closes stays as it is. -/
theorem Step.eq_of_held (h : Step hold move job job') (hheld : hold job.row = .held owner)
    (htake : ∀ owner', move ≠ .take owner') (hclose : move ≠ .close)
    (hfinish : ∀ attempt, move ≠ .finish owner attempt) : job' = job := by
  cases h with
  | idle => rfl
  | wait _ h => rw [h] at hheld; cases hheld
  | take => exact absurd rfl (htake _)
  | finish _ h =>
    rw [h] at hheld
    cases hheld
    exact absurd rfl (hfinish _)
  | close => exact absurd rfl hclose

/-! ## Runs -/

/-- The run of a job. -/
abbrev JobRun (hold : ρ → Hold ω) (α : Type) :=
  Run (fun (move : Move ω α) (job job' : Job ρ α) => Step hold move job job')

variable (run : JobRun hold α) {n m : ℕ}

/-- A closed job stays as it is. -/
theorem eq_of_closed (hnm : n ≤ m) (hclosed : hold (run.state n).row = .closed) :
    run.state m = run.state n := by
  refine run.holds_of_le (P := fun job => job = run.state n) hnm rfl fun j _ _ hj => ?_
  rw [(run.steps j).eq_of_closed (by rw [hj]; exact hclosed), hj]

/-- One who does not hold the job gets hold of it only by taking it. -/
theorem not_held_of_no_take (hnm : n ≤ m) (hn : hold (run.state n).row ≠ .held owner)
    (htake : ∀ j, n ≤ j → j < m → run.event j ≠ .take owner) :
    hold (run.state m).row ≠ .held owner := by
  refine run.holds_of_le (P := fun job => hold job.row ≠ .held owner) hnm hn
    fun j hnj hjm hj h => ?_
  exact ((run.steps j).held h).elim hj (htake j hnj hjm)

end Lease
