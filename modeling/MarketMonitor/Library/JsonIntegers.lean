import Mathlib.Data.List.Basic
import MarketMonitor.Library.Json

/-!
# The integers of a value

An integer of more than 4300 digits has no text. A value that has such an integer in it, at any
depth, has none either (`Printable`).
-/

namespace Json

mutual

/-- The integers in a value. -/
def ints : Value → List ℤ
  | .int n => [n]
  | .arr items => itemInts items
  | .obj fields => fieldInts fields
  | _ => []

def itemInts : List Value → List ℤ
  | [] => []
  | v :: vs => ints v ++ itemInts vs

def fieldInts : List (String × Value) → List ℤ
  | [] => []
  | (_, v) :: fs => ints v ++ fieldInts fs

end

/-- The first integer of 4301 digits (`sys.int_info.default_max_str_digits`). -/
@[irreducible] def intLimit : ℕ := 10 ^ 4300

/-- Every integer in the value has a text. -/
def Printable (v : Value) : Prop := ∀ n ∈ ints v, n.natAbs < intLimit

instance (v : Value) : Decidable (Printable v) :=
  inferInstanceAs (Decidable (∀ n ∈ ints v, n.natAbs < intLimit))

theorem mem_itemInts {n : ℤ} {items : List Value} :
    n ∈ itemInts items ↔ ∃ v ∈ items, n ∈ ints v := by
  induction items with
  | nil => simp [itemInts]
  | cons v items ih => simp [itemInts, ih]

theorem mem_fieldInts {n : ℤ} {fields : List (String × Value)} :
    n ∈ fieldInts fields ↔ ∃ f ∈ fields, n ∈ ints f.2 := by
  induction fields with
  | nil => simp [fieldInts]
  | cons f fields ih =>
    obtain ⟨k, v⟩ := f
    simp [fieldInts, ih]

@[simp] theorem printable_null : Printable .null := fun _ hn => nomatch hn
@[simp] theorem printable_bool (b : Bool) : Printable (.bool b) := fun _ hn => nomatch hn
@[simp] theorem printable_str (s : String) : Printable (.str s) := fun _ hn => nomatch hn

@[simp] theorem printable_int {n : ℤ} : Printable (.int n) ↔ n.natAbs < intLimit := by
  simp [Printable, ints]

@[simp] theorem printable_arr {items : List Value} :
    Printable (.arr items) ↔ ∀ v ∈ items, Printable v := by
  simp only [Printable, ints, mem_itemInts]
  exact ⟨fun h v hv n hn => h n ⟨v, hv, hn⟩, fun h n ⟨v, hv, hn⟩ => h v hv n hn⟩

@[simp] theorem printable_obj {fields : List (String × Value)} :
    Printable (.obj fields) ↔ ∀ f ∈ fields, Printable f.2 := by
  simp only [Printable, ints, mem_fieldInts]
  exact ⟨fun h f hf n hn => h n ⟨f, hf, hn⟩, fun h n ⟨f, hf, hn⟩ => h f hf n hn⟩

@[simp] theorem printable_optional (s : Option String) : Printable (Value.optional s) := by
  cases s
  · exact printable_null
  · exact printable_str _

/-- An integer within a million has a text. -/
theorem lt_intLimit_of_le {n : ℕ} (h : n ≤ 10 ^ 6) : n < intLimit := by
  have hpow : ∀ k, 6 < k → n < 10 ^ k := fun k hk =>
    h.trans_lt (Nat.pow_lt_pow_right (by decide) hk)
  unfold intLimit
  exact hpow 4300 (by decide)

end Json
