import Mathlib.Data.List.Nodup
import Mathlib.Data.List.Pairwise

/-!
# Rows by key

Tables whose rows have a key : the row of a key, and a row written over the one of its
key. Under unique keys the table is a finite map (`lookupBy_upsert`,
`nodup_map_upsert`).
-/

namespace Keyed

variable {ρ κ : Type} [DecidableEq κ]

/-- The row of a key. -/
abbrev lookupBy (key : ρ → κ) (k : κ) (rows : List ρ) : Option ρ :=
  rows.find? fun r => key r = k

/-- The table with a row in the place of the one of its key, at the end without one. -/
def upsert (key : ρ → κ) (row : ρ) (rows : List ρ) : List ρ :=
  match lookupBy key (key row) rows with
  | none => rows ++ [row]
  | some _ => rows.map fun r => if key r = key row then row else r

variable {key : ρ → κ} {row r : ρ} {rows : List ρ} {k : κ}

theorem key_of_lookupBy (h : lookupBy key k rows = some r) : key r = k := by
  simpa using List.find?_some h

theorem mem_of_lookupBy (h : lookupBy key k rows = some r) : r ∈ rows :=
  List.mem_of_find?_eq_some h

theorem lookupBy_eq_none_iff : lookupBy key k rows = none ↔ k ∉ rows.map key := by
  simp [List.find?_eq_none]

/-- Under unique keys a row is the row of its key. -/
theorem lookupBy_of_mem (hnodup : (rows.map key).Nodup) (hr : r ∈ rows) :
    lookupBy key (key r) rows = some r := by
  induction rows with
  | nil => cases hr
  | cons a rows ih =>
    rw [List.map_cons, List.nodup_cons] at hnodup
    rcases List.mem_cons.mp hr with rfl | hr
    · simp
    · have hne : key a ≠ key r := fun h => hnodup.1 (h ▸ List.mem_map_of_mem hr)
      rw [lookupBy, List.find?_cons_of_neg (by simpa using hne)]
      exact ih hnodup.2 hr

/-- Under unique keys the rows of a key are its row. -/
theorem filter_eq_toList_lookupBy (hnodup : (rows.map key).Nodup) :
    (rows.filter fun r => key r = k) = (lookupBy key k rows).toList := by
  cases hrow : lookupBy key k rows with
  | none =>
    refine List.filter_eq_nil_iff.mpr fun r hr hk => ?_
    exact lookupBy_eq_none_iff.mp hrow (of_decide_eq_true hk ▸ List.mem_map_of_mem hr)
  | some row =>
    have hmem := mem_of_lookupBy hrow
    have hkey := key_of_lookupBy hrow
    have hsub : ∀ r ∈ rows.filter (fun r => key r = k), r = row := by
      intro r hr
      obtain ⟨hr, hk⟩ := List.mem_filter.mp hr
      exact List.inj_on_of_nodup_map hnodup hr hmem ((of_decide_eq_true hk).trans hkey.symm)
    have hnodup' : (rows.filter fun r => key r = k).Nodup := (List.Nodup.of_map _ hnodup).filter _
    refine List.perm_singleton.mp ((List.perm_ext_iff_of_nodup hnodup'
      (List.nodup_singleton row)).mpr fun r => ?_)
    rw [List.mem_singleton]
    refine ⟨hsub r, ?_⟩
    rintro rfl
    exact List.mem_filter.mpr ⟨hmem, decide_eq_true hkey⟩

theorem lookupBy_append : lookupBy key k (rows ++ [row]) =
    (lookupBy key k rows).or (if key row = k then some row else none) := by
  rw [lookupBy, List.find?_append]
  by_cases h : key row = k <;> simp [h]

/-- Rows changed without their keys. -/
theorem lookupBy_map {f : ρ → ρ} (hf : ∀ r, key (f r) = key r) :
    lookupBy key k (rows.map f) = (lookupBy key k rows).map f := by
  rw [lookupBy, List.find?_map]
  congr 2
  funext r
  simp [hf]

/-- Replacing the rows of a key changes the row of that key only. -/
theorem lookupBy_map_replace (key : ρ → κ) (row : ρ) (k : κ) (rows : List ρ) :
    lookupBy key k (rows.map fun r => if key r = key row then row else r) =
      if k = key row then (lookupBy key k rows).map fun _ => row else lookupBy key k rows := by
  induction rows with
  | nil => simp
  | cons a rows ih =>
    by_cases ha : key a = key row <;> by_cases hk : k = key row <;>
      by_cases hak : key a = k <;> simp_all

/-- The row written is the row of its key; the other keys keep theirs. -/
theorem lookupBy_upsert (key : ρ → κ) (row : ρ) (rows : List ρ) (k : κ) :
    lookupBy key k (upsert key row rows) =
      if k = key row then some row else lookupBy key k rows := by
  unfold upsert
  cases hrow : lookupBy key (key row) rows with
  | none =>
    simp only [lookupBy_append]
    by_cases hk : k = key row
    · subst hk
      simp [hrow]
    · simp [hk, Ne.symm hk]
  | some r =>
    simp only [lookupBy_map_replace]
    by_cases hk : k = key row
    · subst hk
      simp [hrow]
    · simp [hk]

theorem lookupBy_upsert_of_ne (h : k ≠ key row) :
    lookupBy key k (upsert key row rows) = lookupBy key k rows := by
  rw [lookupBy_upsert, if_neg h]

/-- Writing over a row keeps the keys; writing a new row adds its key. -/
theorem map_upsert (key : ρ → κ) (row : ρ) (rows : List ρ) :
    (upsert key row rows).map key =
      if key row ∈ rows.map key then rows.map key else rows.map key ++ [key row] := by
  unfold upsert
  cases hrow : lookupBy key (key row) rows with
  | none =>
    rw [if_neg (lookupBy_eq_none_iff.mp hrow), List.map_append, List.map_singleton]
  | some r =>
    have hmem : key row ∈ rows.map key :=
      List.mem_map.mpr ⟨r, mem_of_lookupBy hrow, key_of_lookupBy hrow⟩
    rw [if_pos hmem, List.map_map]
    refine List.map_congr_left fun a _ => ?_
    by_cases ha : key a = key row <;> simp [ha]

theorem nodup_map_upsert (h : (rows.map key).Nodup) :
    ((upsert key row rows).map key).Nodup := by
  rw [map_upsert]
  split
  · exact h
  · rename_i hnew
    rw [List.nodup_append]
    refine ⟨h, List.nodup_singleton _, ?_⟩
    rintro a ha b hb rfl
    exact hnew (List.mem_singleton.mp hb ▸ ha)

/-- Under unique keys a row is in the table exactly when it is the row of its key. -/
theorem lookupBy_eq_some_iff (hnodup : (rows.map key).Nodup) :
    lookupBy key k rows = some r ↔ r ∈ rows ∧ key r = k := by
  constructor
  · intro h
    exact ⟨mem_of_lookupBy h, key_of_lookupBy h⟩
  · rintro ⟨hr, rfl⟩
    exact lookupBy_of_mem hnodup hr

end Keyed
