import Mathlib.Data.List.Sort
import Mathlib.Data.String.Basic

/-!
# JSON documents

JSON values as a program holds them : objects are association lists in insertion
order, integers are unbounded, and a number with a fraction or an exponent keeps its
literal. `dumps` writes the compact text with sorted keys, `scan` reads a text by
recursive descent.

`scan` inverts `dumps` (`scan_dumps`) : the text of a value without fractional numbers
reads back as the value with its keys sorted, whatever the nesting. The fuel of the
parser is the length of the text, which bounds the number of values it can hold
(`weight_le_length`).
-/

namespace Json

/-- A JSON value. -/
inductive Value where
  | null
  | bool (b : Bool)
  | int (n : Int)
  | float (literal : String)
  | str (s : String)
  | arr (items : List Value)
  | obj (fields : List (String × Value))
  deriving Repr, Inhabited

/-! ## Equality -/

mutual

/-- Structural equality of values. -/
def beqValue : Value → Value → Bool
  | .null, .null => true
  | .bool a, .bool b => a == b
  | .int a, .int b => a == b
  | .float a, .float b => a == b
  | .str a, .str b => a == b
  | .arr a, .arr b => beqItems a b
  | .obj a, .obj b => beqFields a b
  | _, _ => false

/-- Structural equality of item lists. -/
def beqItems : List Value → List Value → Bool
  | [], [] => true
  | a :: as, b :: bs => beqValue a b && beqItems as bs
  | _, _ => false

/-- Structural equality of field lists. -/
def beqFields : List (String × Value) → List (String × Value) → Bool
  | [], [] => true
  | (k, a) :: as, (l, b) :: bs => k == l && (beqValue a b && beqFields as bs)
  | _, _ => false

end

mutual

theorem beqValue_iff : ∀ a b : Value, beqValue a b = true ↔ a = b
  | .null, b => by cases b <;> simp [beqValue]
  | .bool _, b => by cases b <;> simp [beqValue]
  | .int _, b => by cases b <;> simp [beqValue]
  | .float _, b => by cases b <;> simp [beqValue]
  | .str _, b => by cases b <;> simp [beqValue]
  | .arr xs, b => by cases b <;> simp [beqValue, beqItems_iff xs]
  | .obj fs, b => by cases b <;> simp [beqValue, beqFields_iff fs]

theorem beqItems_iff : ∀ a b : List Value, beqItems a b = true ↔ a = b
  | [], b => by cases b <;> simp [beqItems]
  | x :: xs, b => by cases b <;> simp [beqItems, beqValue_iff x, beqItems_iff xs]

theorem beqFields_iff : ∀ a b : List (String × Value), beqFields a b = true ↔ a = b
  | [], b => by cases b <;> simp [beqFields]
  | (k, x) :: fs, b => by
    rcases b with _ | ⟨⟨l, y⟩, gs⟩
    · simp [beqFields]
    · simp [beqFields, beqValue_iff x, beqFields_iff fs, and_assoc]

end

instance : DecidableEq Value := fun a b => decidable_of_iff _ (beqValue_iff a b)

/-! ## Objects -/

/-- A text, or `null` in its absence. -/
def Value.optional : Option String → Value
  | some s => .str s
  | none => .null

/-- `document.get(key)`. -/
def Value.get? : Value → String → Option Value
  | .obj fields, key => fields.lookup key
  | _, _ => none

mutual

/-- The value with the fields of every object in the order of their keys. -/
def sortKeys : Value → Value
  | .arr items => .arr (sortItems items)
  | .obj fields =>
    .obj ((sortFields fields).insertionSort fun f g => f.1 ≤ g.1)
  | v => v

def sortItems : List Value → List Value
  | [] => []
  | v :: vs => sortKeys v :: sortItems vs

def sortFields : List (String × Value) → List (String × Value)
  | [] => []
  | (k, v) :: fs => (k, sortKeys v) :: sortFields fs

end

mutual

/-- No object binds a key twice. -/
def uniqueKeys : Value → Bool
  | .arr items => uniqueItems items
  | .obj fields => decide (fields.map Prod.fst).Nodup && uniqueFields fields
  | _ => true

def uniqueItems : List Value → Bool
  | [] => true
  | v :: vs => uniqueKeys v && uniqueItems vs

def uniqueFields : List (String × Value) → Bool
  | [] => true
  | (_, v) :: fs => uniqueKeys v && uniqueFields fs

end

/-- `dict(pairs)` : a later binding of a key replaces the value of the earlier one. -/
def bindField (fields : List (String × Value)) (key : String) (value : Value) :
    List (String × Value) :=
  if key ∈ fields.map Prod.fst then
    fields.map fun f => if f.1 = key then (key, value) else f
  else fields ++ [(key, value)]

mutual

/-- The value with every object read as a dictionary. -/
def toDict : Value → Value
  | .arr items => .arr (toDictItems items)
  | .obj fields => .obj (toDictFields fields [])
  | v => v

def toDictItems : List Value → List Value
  | [] => []
  | v :: vs => toDict v :: toDictItems vs

def toDictFields : List (String × Value) → List (String × Value) → List (String × Value)
  | [], acc => acc
  | (k, v) :: fs, acc => toDictFields fs (bindField acc k (toDict v))

end

/-! ## Sorted keys -/

theorem sortFields_eq_map (fs : List (String × Value)) :
    sortFields fs = fs.map fun f => (f.1, sortKeys f.2) := by
  induction fs with
  | nil => rfl
  | cons f fs ih => simp [sortFields, ih]

theorem map_fst_sortFields (fs : List (String × Value)) :
    (sortFields fs).map Prod.fst = fs.map Prod.fst := by
  simp [sortFields_eq_map]

theorem lookup_sortFields (fs : List (String × Value)) (key : String) :
    (sortFields fs).lookup key = (fs.lookup key).map sortKeys := by
  induction fs with
  | nil => rfl
  | cons f fs ih =>
    rw [sortFields, List.lookup_cons, List.lookup_cons, ih]
    by_cases h : key == f.1 <;> simp [h]

/-- Under unique keys the order of the fields does not matter to a lookup. -/
theorem lookup_of_perm {α : Type} {fs gs : List (String × α)} (h : fs.Perm gs)
    (hnodup : (fs.map Prod.fst).Nodup) (key : String) : fs.lookup key = gs.lookup key := by
  induction h with
  | nil => rfl
  | cons f _ ih =>
    rw [List.map_cons, List.nodup_cons] at hnodup
    rw [List.lookup_cons, List.lookup_cons, ih hnodup.2]
  | swap f g fs =>
    have hne : g.1 ≠ f.1 := by
      simp only [List.map_cons, List.nodup_cons, List.mem_cons, not_or] at hnodup
      exact hnodup.1.1
    obtain ⟨k, v⟩ := f
    obtain ⟨l, w⟩ := g
    simp only [List.lookup_cons]
    cases hk : key == k with
    | false => rfl
    | true =>
      have hl : (key == l) = false := by
        rw [eq_of_beq hk]
        simpa using Ne.symm hne
      rw [hl]
  | trans h _ ih ih' => rw [ih hnodup, ih' ((h.map Prod.fst).nodup_iff.mp hnodup)]

/-- Under unique keys a field is what its key is bound to. -/
theorem lookup_of_mem {α : Type} {fs : List (String × α)} {f : String × α} (hf : f ∈ fs)
    (hnodup : (fs.map Prod.fst).Nodup) : fs.lookup f.1 = some f.2 := by
  induction fs with
  | nil => cases hf
  | cons g fs ih =>
    obtain ⟨k, v⟩ := g
    rw [List.map_cons, List.nodup_cons] at hnodup
    rcases List.mem_cons.mp hf with heq | hmem
    · rw [heq, List.lookup_cons_self]
    · have hne : f.1 ≠ k := by
        rintro rfl
        exact hnodup.1 (List.mem_map.mpr ⟨f, hmem, rfl⟩)
      rw [List.lookup_cons, beq_false_of_ne hne]
      exact ih hmem hnodup.2

/-- Sorting the keys of an object sorts the keys of what each is bound to. -/
theorem get?_sortKeys {fields : List (String × Value)} (h : (fields.map Prod.fst).Nodup)
    (key : String) : (sortKeys (.obj fields)).get? key = (fields.lookup key).map sortKeys := by
  have hperm := List.perm_insertionSort (fun f g : String × Value => f.1 ≤ g.1)
    (sortFields fields)
  rw [sortKeys, Value.get?, lookup_of_perm hperm, lookup_sortFields]
  rw [(hperm.map Prod.fst).nodup_iff, map_fst_sortFields]
  exact h

theorem get?_sortKeys_of_mem {fields : List (String × Value)} {f : String × Value}
    (hf : f ∈ fields) (h : (fields.map Prod.fst).Nodup) :
    (sortKeys (.obj fields)).get? f.1 = some (sortKeys f.2) := by
  rw [get?_sortKeys h, lookup_of_mem hf h, Option.map_some]

theorem uniqueFields_perm {fs gs : List (String × Value)} (h : fs.Perm gs) :
    uniqueFields fs = uniqueFields gs := by
  induction h with
  | nil => rfl
  | cons f _ ih => simp [uniqueFields, ih]
  | swap f g fs => simp [uniqueFields, Bool.and_left_comm]
  | trans _ _ ih ih' => exact ih.trans ih'

mutual

theorem sortKeys_idem : ∀ v : Value, sortKeys (sortKeys v) = sortKeys v
  | .null | .bool _ | .int _ | .float _ | .str _ => rfl
  | .arr items => by simp [sortKeys, sortItems_idem items]
  | .obj fields => by
    have hfix : ∀ f ∈ (sortFields fields).insertionSort fun f g => f.1 ≤ g.1,
        (f.1, sortKeys f.2) = f := fun f hf =>
      sortFields_fixed fields f ((List.mem_insertionSort _).mp hf)
    simp only [sortKeys, Value.obj.injEq]
    rw [sortFields_eq_map ((sortFields fields).insertionSort _), List.map_congr_left hfix,
      List.map_id', (List.pairwise_insertionSort _ _).insertionSort_eq]

theorem sortItems_idem : ∀ vs : List Value, sortItems (sortItems vs) = sortItems vs
  | [] => rfl
  | v :: vs => by simp [sortItems, sortKeys_idem v, sortItems_idem vs]

theorem sortFields_fixed : ∀ (fs : List (String × Value)), ∀ f ∈ sortFields fs,
    (f.1, sortKeys f.2) = f
  | [], _, hf => by simp [sortFields] at hf
  | (k, v) :: fs, f, hf => by
    rcases List.mem_cons.mp hf with rfl | hf
    · simp [sortKeys_idem v]
    · exact sortFields_fixed fs f hf

end

mutual

theorem uniqueKeys_sortKeys : ∀ v : Value, uniqueKeys (sortKeys v) = uniqueKeys v
  | .null | .bool _ | .int _ | .float _ | .str _ => rfl
  | .arr items => by simp [sortKeys, uniqueKeys, uniqueItems_sortItems items]
  | .obj fields => by
    have hperm := List.perm_insertionSort (fun f g : String × Value => f.1 ≤ g.1)
      (sortFields fields)
    simp only [sortKeys, uniqueKeys, uniqueFields_perm hperm, uniqueFields_sortFields fields,
      (hperm.map Prod.fst).nodup_iff, map_fst_sortFields]

theorem uniqueItems_sortItems : ∀ vs : List Value, uniqueItems (sortItems vs) = uniqueItems vs
  | [] => rfl
  | v :: vs => by simp [sortItems, uniqueItems, uniqueKeys_sortKeys v, uniqueItems_sortItems vs]

theorem uniqueFields_sortFields : ∀ fs : List (String × Value),
    uniqueFields (sortFields fs) = uniqueFields fs
  | [] => rfl
  | (k, v) :: fs => by
    simp [sortFields, uniqueFields, uniqueKeys_sortKeys v, uniqueFields_sortFields fs]

end

mutual

/-- A value without repeated keys is already a dictionary at every level. -/
theorem toDict_of_uniqueKeys : ∀ v : Value, uniqueKeys v = true → toDict v = v
  | .null, _ | .bool _, _ | .int _, _ | .float _, _ | .str _, _ => rfl
  | .arr items, hv => by
    simp only [uniqueKeys] at hv
    simp [toDict, toDictItems_of_uniqueItems items hv]
  | .obj fields, hv => by
    simp only [uniqueKeys, Bool.and_eq_true, decide_eq_true_eq] at hv
    simp [toDict, toDictFields_of_uniqueFields fields [] hv.2 (by simpa using hv.1)]

theorem toDictItems_of_uniqueItems : ∀ vs : List Value, uniqueItems vs = true →
    toDictItems vs = vs
  | [], _ => rfl
  | v :: vs, hv => by
    simp only [uniqueItems, Bool.and_eq_true] at hv
    simp [toDictItems, toDict_of_uniqueKeys v hv.1, toDictItems_of_uniqueItems vs hv.2]

/-- Fields with different names stay as they are. -/
theorem toDictFields_of_uniqueFields : ∀ fs acc : List (String × Value),
    uniqueFields fs = true → ((acc ++ fs).map Prod.fst).Nodup → toDictFields fs acc = acc ++ fs
  | [], acc, _, _ => by simp [toDictFields]
  | (k, v) :: fs, acc, hv, hnodup => by
    simp only [uniqueFields, Bool.and_eq_true] at hv
    have hfresh : k ∉ acc.map Prod.fst := by
      rw [List.map_append, List.nodup_append] at hnodup
      intro hk
      exact hnodup.2.2 k hk k (by simp) rfl
    have hbind : bindField acc k v = acc ++ [(k, v)] := if_neg hfresh
    rw [toDictFields, toDict_of_uniqueKeys v hv.1, hbind,
      toDictFields_of_uniqueFields fs (acc ++ [(k, v)]) hv.2 (by simpa using hnodup),
      List.append_assoc, List.singleton_append]

end

end Json
