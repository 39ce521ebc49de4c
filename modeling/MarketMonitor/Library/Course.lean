import MarketMonitor.Library.Transaction

/-!
# Processes of transactions

A process reads a state and changes it by transactions, one after the other, and may stop
between any two of them. Its course is the states its transactions leave and what it returns;
`stoppedAfter` is the state it leaves when it stops after some of them.

`Does` says that a process returns and through which states it goes. Its rules follow the
process.
-/

namespace Transaction

variable {σ ε α β : Type}

/-- The states the transactions of a process leave, in order, and what it returns. -/
structure Course (σ ε α : Type) where
  commits : List σ
  result : Except ε α

/-- The last of the states that were reached from `s`. -/
def lastOf (s : σ) (commits : List σ) : σ := commits.getLast?.getD s

@[simp] theorem lastOf_nil (s : σ) : lastOf s [] = s := rfl

@[simp] theorem lastOf_concat (s s' : σ) (commits : List σ) :
    lastOf s (commits ++ [s']) = s' := by
  rw [lastOf, List.getLast?_concat, Option.getD_some]

theorem lastOf_append (s : σ) (xs ys : List σ) : lastOf s (xs ++ ys) = lastOf (lastOf s xs) ys := by
  rcases ys.eq_nil_or_concat with rfl | ⟨ys, y, rfl⟩
  · rw [List.append_nil, lastOf_nil]
  · rw [List.concat_eq_append, ← List.append_assoc, lastOf_concat, lastOf_concat]

theorem lastOf_cons (s s' : σ) (commits : List σ) : lastOf s (s' :: commits) = lastOf s' commits :=
  lastOf_append s [s'] commits

/-! ## What a course passes through -/

section Passes

variable {P Q : ℕ → σ → Prop} {s s' : σ} {commits commits' : List σ}

/-- The state after `n` of the transactions satisfies `P n`. -/
def Passes (P : ℕ → σ → Prop) (s : σ) (commits : List σ) : Prop :=
  ∀ n ≤ commits.length, P n (lastOf s (commits.take n))

theorem passes_nil (h : P 0 s) : Passes P s [] := by
  intro n hn
  obtain rfl := Nat.le_zero.mp hn
  exact h

theorem passes_cons (h : P 0 s) (hrest : Passes (fun n => P (n + 1)) s' commits) :
    Passes P s (s' :: commits) := by
  intro n hn
  cases n with
  | zero => exact h
  | succ n =>
    rw [List.take_succ_cons, lastOf_cons]
    exact hrest n (Nat.le_of_succ_le_succ hn)

theorem Passes.last (h : Passes P s commits) : P commits.length (lastOf s commits) := by
  have hlast := h commits.length le_rfl
  rwa [List.take_length] at hlast

theorem Passes.imp (h : Passes P s commits) (himp : ∀ n s, n ≤ commits.length → P n s → Q n s) :
    Passes Q s commits := fun n hn => himp n _ hn (h n hn)

/-- One course after another. -/
theorem Passes.append (h : Passes P s commits)
    (hrest : Passes (fun n => P (commits.length + n)) (lastOf s commits) commits') :
    Passes P s (commits ++ commits') := by
  intro n hn
  rcases le_or_gt n commits.length with hle | hgt
  · rw [List.take_append_of_le_length hle]
    exact h n hle
  · rw [List.length_append] at hn
    have hafter : P (commits.length + (n - commits.length)) _ :=
      hrest (n - commits.length) (by omega)
    rw [Nat.add_sub_cancel' hgt.le] at hafter
    rw [List.take_append, List.take_of_length_le hgt.le, lastOf_append]
    exact hafter

end Passes

/-- A process, by its course from each state. -/
def Process (σ ε α : Type) := σ → Course σ ε α

namespace Process

instance : Monad (Process σ ε) where
  pure a := fun _ => ⟨[], .ok a⟩
  bind p f := fun s =>
    match (p s).result with
    | .error e => ⟨(p s).commits, .error e⟩
    | .ok a =>
      let rest := f a (lastOf s (p s).commits)
      ⟨(p s).commits ++ rest.commits, rest.result⟩

/-- Read the state outside of a transaction. -/
def read (f : σ → α) : Process σ ε α := fun s => ⟨[], .ok (f s)⟩

/-- Raise outside of a transaction. -/
def raise (e : ε) : Process σ ε α := fun _ => ⟨[], .error e⟩

/-- Run a command as one transaction. -/
def transact (command : EStateM ε σ α) : Process σ ε α := fun s =>
  match command.run s with
  | .ok a s' => ⟨[s'], .ok a⟩
  | .error e _ => ⟨[], .error e⟩

/-- The state a process leaves that stops after `n` transactions, or ends before. -/
def stoppedAfter (n : ℕ) (p : Process σ ε α) (s : σ) : σ := lastOf s ((p s).commits.take n)

/-- The process returns `a`, through the states `commits`. -/
def Does (p : Process σ ε α) (s : σ) (commits : List σ) (a : α) : Prop := p s = ⟨commits, .ok a⟩

variable {p : Process σ ε α} {f : α → Process σ ε β} {s : σ} {commits commits' : List σ} {a : α}
  {b : β}

theorem does_pure (a : α) (s : σ) : Does (pure a : Process σ ε α) s [] a := rfl

theorem does_read (g : σ → α) (s : σ) : Does (read g : Process σ ε α) s [] (g s) := rfl

theorem does_transact {command : EStateM ε σ α} {s' : σ} (h : command.run s = .ok a s') :
    Does (transact command) s [s'] a := by
  rw [Does, transact, h]

theorem Does.bind (hp : Does p s commits a) (hf : Does (f a) (lastOf s commits) commits' b) :
    Does (p >>= f) s (commits ++ commits') b := by
  change (match (p s).result with
    | .error e => (⟨(p s).commits, .error e⟩ : Course σ ε β)
    | .ok a => ⟨(p s).commits ++ (f a (lastOf s (p s).commits)).commits,
        (f a (lastOf s (p s).commits)).result⟩) = _
  rw [hp]
  dsimp only
  rw [hf]

theorem Does.stoppedAfter (h : Does p s commits a) (n : ℕ) :
    stoppedAfter n p s = lastOf s (commits.take n) := by
  rw [Process.stoppedAfter, h]

/-- A process that is not stopped leaves its last state. -/
theorem Does.stoppedAfter_of_le (h : Does p s commits a) {n : ℕ} (hn : commits.length ≤ n) :
    Process.stoppedAfter n p s = lastOf s commits := by
  rw [h.stoppedAfter, List.take_of_length_le hn]

end Process

end Transaction
