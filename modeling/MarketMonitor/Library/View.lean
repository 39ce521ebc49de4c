import Mathlib.Data.List.Induction
import Mathlib.Order.Basic
import MarketMonitor.Library.Keyed

/-!
# Views of a log

A log grows at its end, and a view keeps one row for each key of its entries, computed
from the row before and the new entry. `view` recomputes the row of a key from the log;
`Maintains` says that a table of rows is the view, and `maintains_concat` that writing
the next row over the table is enough to keep it so when the log grows.

`join` is the inner join of two tables on a foreign key; a log is often one.
-/

namespace View

open Keyed

variable {α β ε κ ν : Type} [DecidableEq κ]

/-! ## Entries of a key -/

/-- The entries of a key, in the order of the log. -/
def entries (key : ε → κ) (k : κ) (log : List ε) : List ε :=
  log.filter fun e => key e = k

variable {key : ε → κ} {step : Option ν → ε → ν} {rowKey : ν → κ} {k : κ} {e : ε}
  {log : List ε} {rows : List ν}

theorem mem_entries : e ∈ entries key k log ↔ e ∈ log ∧ key e = k := by
  simp [entries]

theorem entries_concat_self (key : ε → κ) (log : List ε) (e : ε) :
    entries key (key e) (log ++ [e]) = entries key (key e) log ++ [e] := by
  simp [entries]

theorem entries_concat_of_ne (h : k ≠ key e) :
    entries key k (log ++ [e]) = entries key k log := by
  simp [entries, h.symm]

/-! ## The view of a key -/

/-- The row of a key, computed from its entries. -/
def view (key : ε → κ) (step : Option ν → ε → ν) (k : κ) (log : List ε) : Option ν :=
  (entries key k log).foldl (fun row e => some (step row e)) none

theorem view_concat_self (key : ε → κ) (step : Option ν → ε → ν) (log : List ε) (e : ε) :
    view key step (key e) (log ++ [e]) = some (step (view key step (key e) log) e) := by
  rw [view, entries_concat_self, List.foldl_append]
  rfl

theorem view_concat_of_ne (h : k ≠ key e) :
    view key step k (log ++ [e]) = view key step k log := by
  rw [view, entries_concat_of_ne h, view]

/-- What the empty log and its view satisfy, and each entry keeps, holds of every log and
its view. -/
theorem view_induction {P : List ε → Option ν → Prop} (hnil : P [] none)
    (hconcat : ∀ es row e, key e = k → P es row → P (es ++ [e]) (some (step row e)))
    (log : List ε) : P (entries key k log) (view key step k log) := by
  induction log using List.reverseRecOn with
  | nil => exact hnil
  | append_singleton log e ih =>
    by_cases hk : k = key e
    · subst hk
      rw [entries_concat_self, view_concat_self]
      exact hconcat _ _ _ rfl ih
    · rw [entries_concat_of_ne hk, view_concat_of_ne hk]
      exact ih

/-- A row of the view comes from the last entry of its key. -/
theorem view_eq_some {v : ν} (h : view key step k log = some v) :
    ∃ row, ∃ e ∈ log, key e = k ∧ v = step row e := by
  have hview : ∀ v, view key step k log = some v →
      ∃ row, ∃ e ∈ entries key k log, v = step row e := by
    refine view_induction (P := fun es row => ∀ v, row = some v →
      ∃ row, ∃ e ∈ es, v = step row e) (by simp) ?_ log
    intro es row e _ _ v hv
    exact ⟨row, e, by simp, (Option.some.inj hv).symm⟩
  obtain ⟨row, e, he, hv⟩ := hview v h
  exact ⟨row, e, (mem_entries.mp he).1, (mem_entries.mp he).2, hv⟩

/-- A counter that each step increments counts the entries. -/
theorem count_view {size : ν → ℕ}
    (hsize : ∀ row e, size (step row e) = (row.map size).getD 0 + 1) :
    ((view key step k log).map size).getD 0 = (entries key k log).length := by
  refine view_induction (P := fun es row => (row.map size).getD 0 = es.length) (by simp) ?_ log
  intro es row e _ ih
  simp [hsize, ih]

/-- A step that forgets the row keeps the last entry. -/
theorem view_of_last {f : ε → ν} :
    view key (fun _ e => f e) k log = (entries key k log).getLast?.map f := by
  refine view_induction (P := fun es row => row = es.getLast?.map f) (by simp) ?_ log
  intro es row e _ _
  simp

/-- The last entry of an ordered log comes after every entry. -/
theorem le_getLast {τ : Type} [Preorder τ] (time : ε → τ) {last : ε}
    (h : log.Pairwise fun e e' => time e ≤ time e') (he : e ∈ log)
    (hlast : log.getLast? = some last) : time e ≤ time last := by
  obtain ⟨init, rfl⟩ := List.getLast?_eq_some_iff.mp hlast
  rcases List.mem_append.mp he with he | he
  · exact (List.pairwise_append.mp h).2.2 e he last (List.mem_singleton_self _)
  · rw [List.mem_singleton.mp he]

/-! ## Maintained tables -/

/-- The table holds the view of the log. -/
def Maintains (key : ε → κ) (step : Option ν → ε → ν) (rowKey : ν → κ) (rows : List ν)
    (log : List ε) : Prop :=
  ∀ k, lookupBy rowKey k rows = view key step k log

theorem maintains_nil : Maintains key step rowKey [] [] := fun _ => rfl

/-- The next row of an entry, written over the table, maintains the view. -/
theorem maintains_concat (h : Maintains key step rowKey rows log)
    (hkey : ∀ row, rowKey (step row e) = key e) :
    Maintains key step rowKey
      (upsert rowKey (step (lookupBy rowKey (key e) rows) e) rows) (log ++ [e]) := by
  intro k
  rw [lookupBy_upsert, hkey]
  split
  · rename_i hk
    rw [hk, view_concat_self, h]
  · rename_i hk
    rw [view_concat_of_ne hk, h]

/-! ## Joins -/

/-- The rows of `as` with the rows of `bs` they refer to. -/
def join (ref : α → κ) (key : β → κ) (as : List α) (bs : List β) : List (α × β) :=
  as.flatMap fun a => (bs.filter fun b => key b = ref a).map fun b => (a, b)

variable {ref : α → κ} {bkey : β → κ} {as : List α} {bs : List β} {a : α} {b : β}

theorem mem_join : (a, b) ∈ join ref bkey as bs ↔ a ∈ as ∧ b ∈ bs ∧ bkey b = ref a := by
  simp only [join, List.mem_flatMap, List.mem_map, List.mem_filter, decide_eq_true_eq,
    Prod.mk.injEq]
  constructor
  · rintro ⟨a', ha, b', hb, rfl, rfl⟩
    exact ⟨ha, hb⟩
  · rintro ⟨ha, hb⟩
    exact ⟨a, ha, b, hb, rfl, rfl⟩

/-- A row of the right table that nothing refers to does not change the join. -/
theorem join_concat_right (h : ∀ a ∈ as, ref a ≠ bkey b) :
    join ref bkey as (bs ++ [b]) = join ref bkey as bs := by
  refine List.flatMap_congr fun a ha => ?_
  rw [List.filter_append, List.filter_singleton, decide_eq_false (Ne.symm (h a ha))]
  simp

/-- Under unique keys one row has the key of a row. -/
theorem filter_key_eq (hnodup : (bs.map bkey).Nodup) (hb : b ∈ bs) :
    (bs.filter fun b' => bkey b' = bkey b) = [b] := by
  induction bs with
  | nil => cases hb
  | cons b' bs ih =>
    rw [List.map_cons, List.nodup_cons] at hnodup
    rcases List.mem_cons.mp hb with rfl | hb
    · have hrest : ∀ b' ∈ bs, ¬bkey b' = bkey b := fun b' hb' heq =>
        hnodup.1 (heq ▸ List.mem_map_of_mem hb')
      simpa using hrest
    · have hne : ¬bkey b' = bkey b := fun heq =>
        hnodup.1 (heq ▸ List.mem_map_of_mem hb)
      rw [List.filter_cons_of_neg (by simpa using hne)]
      exact ih hnodup.2 hb

/-- A row of the left table comes with the rows it refers to. -/
theorem join_concat_left (ref : α → κ) (as : List α) (hnodup : (bs.map bkey).Nodup) (hb : b ∈ bs)
    (href : ref a = bkey b) : join ref bkey (as ++ [a]) bs = join ref bkey as bs ++ [(a, b)] := by
  rw [join, List.flatMap_append, ← join, List.flatMap_singleton, href, filter_key_eq hnodup hb]
  rfl

/-- Under unique keys the join keeps each row of the left table that refers to one. -/
theorem map_fst_join (hnodup : (bs.map bkey).Nodup) (href : ∀ a ∈ as, ∃ b ∈ bs, bkey b = ref a) :
    (join ref bkey as bs).map Prod.fst = as := by
  induction as with
  | nil => rfl
  | cons a as ih =>
    obtain ⟨b, hb, hkey⟩ := href a List.mem_cons_self
    have hrest := ih fun a' ha' => href a' (List.mem_cons_of_mem a ha')
    rw [join] at hrest ⊢
    rw [List.flatMap_cons, ← hkey, filter_key_eq hnodup hb, List.map_append, hrest]
    rfl

end View
