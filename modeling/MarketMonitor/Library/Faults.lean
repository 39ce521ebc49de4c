import Mathlib.Algebra.Order.Field.Rat
import Mathlib.Data.List.Forall2
import MarketMonitor.Library.Transaction

/-!
# Computations that can raise

The partial operations of the language, each raising its own exception outside its domain :
a quotient, the item of a sequence at an index, the entry of a dictionary and an assertion.
`Returns x Q` says that a computation raises nothing and that its result satisfies `Q`; its
rules follow the constructs of a computation.
-/

namespace Faults

/-- The exceptions of the partial operations. -/
inductive Fault where
  | zeroDivision | indexError | keyError | assertionError | overflowError
  | valueError (message : String)
  deriving DecidableEq, Repr

/-- A computation that can raise one of them. -/
abbrev Checked : Type → Type := Except Fault

variable {α β κ : Type}

/-! ## Partial operations -/

/-- `a / b`. -/
def quotient (a b : ℚ) : Checked ℚ :=
  if b = 0 then throw .zeroDivision else pure (a / b)

/-- `xs[i]`, where a negative index counts from the end. -/
def item (xs : List α) (i : ℤ) : Checked α :=
  let place := if i < 0 then i + xs.length else i
  if place < 0 then throw .indexError
  else match xs[place.toNat]? with
    | some x => pure x
    | none => throw .indexError

/-- `entries[key]`. -/
def entry (entries : κ → Option α) (key : κ) : Checked α :=
  match entries key with
  | some x => pure x
  | none => throw .keyError

/-- `assert value is not None`. -/
def asserted : Option α → Checked α
  | some x => pure x
  | none => throw .assertionError

/-! ## Computations that return -/

/-- The computation raises nothing, and what it returns satisfies `Q`. -/
def Returns (x : Checked α) (Q : α → Prop) : Prop := ∃ a, x = .ok a ∧ Q a

variable {Q R : α → Prop}

theorem returns_pure {a : α} (h : Q a) : Returns (pure a) Q := ⟨a, rfl, h⟩

theorem Returns.mono {x : Checked α} (hx : Returns x Q) (h : ∀ a, Q a → R a) : Returns x R := by
  obtain ⟨a, ha, hQ⟩ := hx
  exact ⟨a, ha, h a hQ⟩

theorem Returns.bind {x : Checked α} {f : α → Checked β} {S : β → Prop} (hx : Returns x Q)
    (hf : ∀ a, Q a → Returns (f a) S) : Returns (x >>= f) S := by
  obtain ⟨a, rfl, hQ⟩ := hx
  exact hf a hQ

/-- Nothing before the step that raises raises. -/
theorem Returns.bind_eq_error {x : Checked α} {f : α → Checked β} {e : Fault}
    (hx : Returns x Q) (hf : ∀ a, Q a → f a = .error e) : (x >>= f) = .error e := by
  obtain ⟨a, rfl, hQ⟩ := hx
  exact hf a hQ

theorem Returns.ite {p : Prop} [Decidable p] {x y : Checked α} (hx : p → Returns x Q)
    (hy : ¬p → Returns y Q) : Returns (if p then x else y) Q := by
  split
  · exact hx ‹_›
  · exact hy ‹_›

/-- A quotient returns when its divisor is not zero. -/
theorem returns_quotient {a b : ℚ} (h : b ≠ 0) : Returns (quotient a b) fun q => q = a / b :=
  ⟨a / b, if_neg h, rfl⟩

/-- An index within the sequence, counted from its start. -/
theorem returns_item {xs : List α} {i : ℤ} (hlow : 0 ≤ i) (hhigh : i < xs.length) :
    Returns (item xs i) fun x => x ∈ xs := by
  have hi : i.toNat < xs.length := by omega
  refine ⟨xs[i.toNat], ?_, List.getElem_mem hi⟩
  rw [item, if_neg (not_lt.mpr hlow)]
  simp only [if_neg (not_lt.mpr hlow), List.getElem?_eq_getElem hi]
  rfl

/-- An index within the sequence, counted from its end. -/
theorem returns_item_neg {xs : List α} {i : ℤ} (hlow : -xs.length ≤ i) (hhigh : i < 0) :
    Returns (item xs i) fun x => x ∈ xs := by
  have hi : (i + xs.length).toNat < xs.length := by omega
  refine ⟨xs[(i + xs.length).toNat], ?_, List.getElem_mem hi⟩
  have hplace : ¬i + xs.length < 0 := by omega
  rw [item, if_pos hhigh]
  simp only [if_neg hplace, List.getElem?_eq_getElem hi]
  rfl

theorem returns_entry {entries : κ → Option α} {key : κ} {x : α} (h : entries key = some x) :
    Returns (entry entries key) fun y => y = x := ⟨x, by rw [entry, h]; rfl, rfl⟩

theorem returns_asserted {value : Option α} (h : value.isSome) :
    Returns (asserted value) fun x => value = some x := by
  obtain ⟨x, rfl⟩ := Option.isSome_iff_exists.mp h
  exact ⟨x, rfl, rfl⟩

/-- A list of computations that return, one result each. -/
theorem returns_mapM {f : α → Checked β} {S : α → β → Prop} {xs : List α}
    (h : ∀ x ∈ xs, Returns (f x) (S x)) : Returns (xs.mapM f) fun ys => List.Forall₂ S xs ys := by
  induction xs with
  | nil => exact ⟨[], rfl, .nil⟩
  | cons x xs ih =>
    obtain ⟨y, hy, hS⟩ := h x List.mem_cons_self
    obtain ⟨ys, hys, hall⟩ := ih fun x' hx' => h x' (List.mem_cons_of_mem x hx')
    refine ⟨y :: ys, ?_, .cons hS hall⟩
    rw [List.mapM_cons, hy, hys]
    rfl

/-- Each result of a list of computations is the result of one of them. -/
theorem exists_of_mem_forall₂ {S : α → β → Prop} {xs : List α} {ys : List β}
    (h : List.Forall₂ S xs ys) {y : β} (hy : y ∈ ys) : ∃ x ∈ xs, S x y := by
  induction h with
  | nil => exact absurd hy List.not_mem_nil
  | cons hS _ ih =>
    rcases List.mem_cons.mp hy with rfl | hmem
    · exact ⟨_, List.mem_cons_self, hS⟩
    · obtain ⟨x, hx, hxS⟩ := ih hmem
      exact ⟨x, List.mem_cons_of_mem _ hx, hxS⟩

/-- The first computation of a list that raises decides what it raises. -/
theorem mapM_eq_error {f : α → Checked β} {e : Fault} {xs : List α}
    (hraise : ∀ x ∈ xs, (∃ y, f x = .ok y) ∨ f x = .error e) (hsome : ∃ x ∈ xs, f x = .error e) :
    xs.mapM f = .error e := by
  induction xs with
  | nil => exact absurd hsome.choose_spec.1 List.not_mem_nil
  | cons x xs ih =>
    rw [List.mapM_cons]
    rcases hraise x List.mem_cons_self with ⟨y, hy⟩ | hx
    · have hrest : ∃ x' ∈ xs, f x' = .error e := by
        obtain ⟨x', hx', hfault⟩ := hsome
        rcases List.mem_cons.mp hx' with rfl | hmem
        · rw [hy] at hfault; cases hfault
        · exact ⟨x', hmem, hfault⟩
      rw [hy, ih (fun x' hx' => hraise x' (List.mem_cons_of_mem x hx')) hrest]
      rfl
    · rw [hx]
      rfl

end Faults
