import Mathlib.Logic.Relation
import Mathlib.Data.List.Forall2
import Mathlib.Data.List.MinMax
import Mathlib.Data.Prod.Lex

/-!
# Transactions over tables

A command is an `EStateM` computation on a state : when it raises, the state it had
written so far is still there. `atomically` runs a command the way a database
transaction does, committing what a returning command wrote and rolling a raising one
back.

A command is read back through its equations `x.run s = .ok a s'` : the lemmas
`run_*_eq_ok` take such an equation apart, one per construct. Rows are inserted through
`insertInto`, which refuses a row that clashes with one of the table.
-/

namespace Transaction

variable {ε σ α β ρ : Type}

/-! ## Pure checks -/

/-- Raise `e` unless `p` holds. -/
def check (p : Prop) [Decidable p] (e : ε) : Except ε Unit :=
  if p then .ok () else .error e

theorem check_eq_ok {p : Prop} [Decidable p] {e : ε} {u : Unit} : check p e = .ok u ↔ p := by
  unfold check
  split <;> simp [*]

/-- The steps of a returning computation return. -/
theorem except_bind_eq_ok {x : Except ε α} {f : α → Except ε β} {b : β} :
    (x >>= f) = .ok b ↔ ∃ a, x = .ok a ∧ f a = .ok b := by
  cases x <;> simp [bind, Except.bind]

theorem check_eq_error {p : Prop} [Decidable p] {e e' : ε} :
    check p e = .error e' ↔ ¬p ∧ e = e' := by
  unfold check
  split <;> simp [*]

/-- A computation raises in its first step or after it. -/
theorem except_bind_eq_error {x : Except ε α} {f : α → Except ε β} {e : ε} :
    (x >>= f) = .error e ↔ x = .error e ∨ ∃ a, x = .ok a ∧ f a = .error e := by
  cases x <;> simp [bind, Except.bind]

theorem eq_ok_of_except_isOk {x : Except ε α} (h : x.isOk = true) : ∃ a, x = .ok a := by
  cases x with
  | ok a => exact ⟨a, rfl⟩
  | error e => cases h

/-- A list of computations returns when each of them does. -/
theorem mapM_eq_ok_iff {f : α → Except ε β} {xs : List α} {ys : List β} :
    xs.mapM f = .ok ys ↔ List.Forall₂ (fun x y => f x = .ok y) xs ys := by
  induction xs generalizing ys with
  | nil =>
    rw [List.mapM_nil, List.forall₂_nil_left_iff]
    constructor
    · intro h
      cases h
      rfl
    · rintro rfl
      rfl
  | cons x xs ih =>
    simp only [List.mapM_cons, except_bind_eq_ok, List.forall₂_cons_left_iff]
    constructor
    · rintro ⟨y, hy, ys, hys, h⟩
      cases h
      exact ⟨y, ys, hy, ih.mp hys, rfl⟩
    · rintro ⟨y, ys, hy, hys, rfl⟩
      exact ⟨y, hy, ys, ih.mpr hys, rfl⟩

/-- A list of computations raises what one of them does. -/
theorem exists_of_mapM_eq_error {f : α → Except ε β} {xs : List α} {e : ε}
    (h : xs.mapM f = .error e) : ∃ x ∈ xs, f x = .error e := by
  induction xs with
  | nil => cases h
  | cons x xs ih =>
    rw [List.mapM_cons] at h
    cases hx : f x with
    | error e' =>
      rw [hx] at h
      cases h
      exact ⟨x, List.mem_cons_self, hx⟩
    | ok y =>
      rw [hx] at h
      cases hxs : xs.mapM f with
      | error e' =>
        have he : e' = e := by
          simpa [hxs, bind, Except.bind] using h
        obtain ⟨x', hx', hfx'⟩ := ih (he ▸ hxs)
        exact ⟨x', List.mem_cons_of_mem _ hx', hfx'⟩
      | ok ys =>
        simp [hxs, bind, Except.bind, pure, Except.pure] at h

theorem except_mapError_eq_ok {ε' : Type} {f : ε → ε'} {x : Except ε α} {a : α} :
    x.mapError f = .ok a ↔ x = .ok a := by
  cases x <;> simp [Except.mapError]

/-- A list of checks passes when each does. -/
theorem except_forM_eq_ok {f : α → Except ε Unit} {xs : List α} {u : Unit} :
    (forM xs f : Except ε Unit) = .ok u ↔ ∀ x ∈ xs, f x = .ok () := by
  induction xs with
  | nil => simp [pure, Except.pure]
  | cons x xs ih =>
    rw [List.forM_cons, except_bind_eq_ok, List.forall_mem_cons]
    constructor
    · rintro ⟨_, hx, hxs⟩
      exact ⟨hx, ih.mp hxs⟩
    · rintro ⟨hx, hxs⟩
      exact ⟨(), hx, ih.mpr hxs⟩

/-! ## Tables -/

/-- A table of a state : how its rows are read and replaced, and when a new row clashes
with one that is there, on the primary key or on a uniqueness constraint. -/
structure Table (σ ρ : Type) where
  rows : σ → List ρ
  put : List ρ → σ → σ
  clash : ρ → ρ → Bool
  rows_put : ∀ rs s, rows (put rs s) = rs
  put_rows : ∀ s, put (rows s) s = s
  put_put : ∀ rs rs' s, put rs (put rs' s) = put rs s

/-! ## Commands -/

/-- Raise `e` unless `p` holds. -/
def require (p : Prop) [Decidable p] (e : ε) : EStateM ε σ Unit :=
  if p then pure () else throw e

/-- The outcome of a pure computation. -/
def fromExcept : Except ε α → EStateM ε σ α
  | .ok a => pure a
  | .error e => throw e

/-- `INSERT` : the row at the end of the table, `e` when it clashes. -/
def insertInto (table : Table σ ρ) (e : ε) (row : ρ) : EStateM ε σ Unit := do
  let s ← get
  require ((table.rows s).all fun r => !table.clash row r) e
  set (table.put (table.rows s ++ [row]) s)

/-- Run a command as a transaction. -/
def atomically (command : EStateM ε σ α) : EStateM ε σ α := fun s =>
  match command.run s with
  | .ok a s' => .ok a s'
  | .error e _ => .error e s

/-- The outcome of a command, without the state it leaves. -/
def outcome : EStateM.Result ε σ α → Except ε α
  | .ok a _ => .ok a
  | .error e _ => .error e

/-- The state a command leaves. -/
def stateAfter : EStateM.Result ε σ α → σ
  | .ok _ s => s
  | .error _ s => s

/-- Whether a command returned. -/
def isOk : EStateM.Result ε σ α → Bool
  | .ok _ _ => true
  | .error _ _ => false

theorem eq_ok_of_isOk {r : EStateM.Result ε σ α} (h : isOk r = true) :
    ∃ a, r = .ok a (stateAfter r) := by
  cases r with
  | ok a s => exact ⟨a, rfl⟩
  | error e s => cases h

/-! ## Equations of a returning command -/

theorem run_pure_eq_ok {a b : α} {s s' : σ} :
    (pure a : EStateM ε σ α).run s = .ok b s' ↔ a = b ∧ s = s' := by
  simp

theorem run_throw_ne_ok {e : ε} {b : α} {s s' : σ} :
    (throw e : EStateM ε σ α).run s ≠ .ok b s' := by
  intro h
  cases h

/-- A command that returns has returned in its first part, and then in its second. -/
theorem run_bind_eq_ok {x : EStateM ε σ α} {f : α → EStateM ε σ β} {b : β} {s s'' : σ} :
    (x >>= f).run s = .ok b s'' ↔ ∃ a s', x.run s = .ok a s' ∧ (f a).run s' = .ok b s'' := by
  rw [EStateM.run_bind]
  cases hx : x.run s with
  | ok a s' =>
    constructor
    · intro h
      exact ⟨a, s', rfl, h⟩
    · rintro ⟨a', s₁, h, hf⟩
      cases h
      exact hf
  | error e s' =>
    constructor
    · intro h
      cases h
    · rintro ⟨a', s₁, h, -⟩
      cases h

theorem run_get_eq_ok {a s s' : σ} :
    (get : EStateM ε σ σ).run s = .ok a s' ↔ s = a ∧ s = s' := by
  simp

theorem run_set_eq_ok {t s s' : σ} {u : PUnit} :
    (set t : EStateM ε σ PUnit).run s = .ok u s' ↔ t = s' := by
  simp

theorem run_modify_eq_ok {f : σ → σ} {s s' : σ} {u : PUnit} :
    (modify f : EStateM ε σ PUnit).run s = .ok u s' ↔ f s = s' := by
  simp

theorem run_require_eq_ok {p : Prop} [Decidable p] {e : ε} {s s' : σ} {u : Unit} :
    (require p e : EStateM ε σ Unit).run s = .ok u s' ↔ p ∧ s = s' := by
  unfold require
  split
  · simp [*]
  · simp [*]

theorem run_fromExcept_eq_ok {x : Except ε α} {a : α} {s s' : σ} :
    (fromExcept x : EStateM ε σ α).run s = .ok a s' ↔ x = .ok a ∧ s = s' := by
  cases x
  · simp [fromExcept, run_throw_ne_ok]
  · simp [fromExcept]

theorem run_require_of {p : Prop} [Decidable p] {e : ε} {s : σ} (h : p) :
    (require p e : EStateM ε σ Unit).run s = .ok () s :=
  run_require_eq_ok.mpr ⟨h, rfl⟩

theorem run_fromExcept_of_ok {x : Except ε α} {a : α} {s : σ} (h : x = .ok a) :
    (fromExcept x : EStateM ε σ α).run s = .ok a s :=
  run_fromExcept_eq_ok.mpr ⟨h, rfl⟩

theorem run_throw (e : ε) (s : σ) : (throw e : EStateM ε σ α).run s = .error e s := rfl

theorem run_get (s : σ) : (get : EStateM ε σ σ).run s = .ok s s := rfl

theorem run_modify (f : σ → σ) (s : σ) :
    (modify f : EStateM ε σ PUnit).run s = .ok () (f s) := rfl

theorem run_bind_of_ok {x : EStateM ε σ α} {f : α → EStateM ε σ β} {a : α} {s s' : σ}
    (h : x.run s = .ok a s') : (x >>= f).run s = (f a).run s' := by
  rw [EStateM.run_bind, h]

theorem run_bind_of_error {x : EStateM ε σ α} {f : α → EStateM ε σ β} {e : ε} {s s' : σ}
    (h : x.run s = .error e s') : (x >>= f).run s = .error e s' := by
  rw [EStateM.run_bind, h]

/-- A command that raises has raised in its first part, or in its second. -/
theorem run_bind_eq_error {x : EStateM ε σ α} {f : α → EStateM ε σ β} {e : ε} {s s'' : σ} :
    (x >>= f).run s = .error e s'' ↔ x.run s = .error e s'' ∨
      ∃ a s', x.run s = .ok a s' ∧ (f a).run s' = .error e s'' := by
  rw [EStateM.run_bind]
  cases hx : x.run s with
  | ok a s' =>
    constructor
    · intro h
      exact Or.inr ⟨a, s', rfl, h⟩
    · rintro (h | ⟨a', s₁, h, hf⟩)
      · cases h
      · cases h
        exact hf
  | error e' s' =>
    constructor
    · intro h
      cases h
      exact Or.inl rfl
    · rintro (h | ⟨a', s₁, h, -⟩)
      · cases h
        rfl
      · cases h

theorem run_map_eq_ok {f : α → β} {x : EStateM ε σ α} {b : β} {s s' : σ} :
    (f <$> x).run s = .ok b s' ↔ ∃ a, x.run s = .ok a s' ∧ f a = b := by
  rw [map_eq_pure_bind, run_bind_eq_ok]
  constructor
  · rintro ⟨a, s₁, hx, h⟩
    obtain ⟨hf, rfl⟩ := run_pure_eq_ok.mp h
    exact ⟨a, hx, hf⟩
  · rintro ⟨a, hx, rfl⟩
    exact ⟨a, s', hx, rfl⟩

theorem run_map_eq_error {f : α → β} {x : EStateM ε σ α} {e : ε} {s s' : σ} :
    (f <$> x).run s = .error e s' ↔ x.run s = .error e s' := by
  rw [map_eq_pure_bind, run_bind_eq_error]
  constructor
  · rintro (h | ⟨a, s₁, -, h⟩)
    · exact h
    · cases h
  · intro h
    exact Or.inl h

theorem run_require_eq_error {p : Prop} [Decidable p] {e e' : ε} {s s' : σ} :
    (require p e : EStateM ε σ Unit).run s = .error e' s' ↔ ¬p ∧ e = e' ∧ s = s' := by
  unfold require
  split
  · simp [*]
  · simp [*, run_throw]

theorem run_fromExcept_eq_error {x : Except ε α} {e : ε} {s s' : σ} :
    (fromExcept x : EStateM ε σ α).run s = .error e s' ↔ x = .error e ∧ s = s' := by
  cases x
  · simp [fromExcept, run_throw]
  · simp [fromExcept]

theorem stateAfter_run_map {f : α → β} {x : EStateM ε σ α} {s : σ} :
    stateAfter ((f <$> x).run s) = stateAfter (x.run s) := by
  cases hx : x.run s with
  | ok a s' => rw [run_map_eq_ok.mpr ⟨a, hx, rfl⟩, stateAfter, stateAfter]
  | error e s' => rw [run_map_eq_error.mpr hx, stateAfter, stateAfter]

/-- A row is inserted when it clashes with none of the table. -/
theorem run_insertInto_eq_ok {table : Table σ ρ} {e : ε} {row : ρ} {s s' : σ} {u : Unit} :
    (insertInto table e row).run s = .ok u s' ↔
      (∀ r ∈ table.rows s, table.clash row r = false) ∧
        table.put (table.rows s ++ [row]) s = s' := by
  simp only [insertInto, run_bind_eq_ok, run_get_eq_ok, run_require_eq_ok, run_set_eq_ok,
    List.all_eq_true, Bool.not_eq_true']
  constructor
  · rintro ⟨_, _, ⟨rfl, rfl⟩, _, _, ⟨hfree, rfl⟩, rfl⟩
    exact ⟨hfree, rfl⟩
  · rintro ⟨hfree, rfl⟩
    exact ⟨s, s, ⟨rfl, rfl⟩, (), s, ⟨hfree, rfl⟩, rfl⟩

theorem run_insertInto (table : Table σ ρ) (e : ε) {row : ρ} {s : σ}
    (hfree : ∀ r ∈ table.rows s, table.clash row r = false) :
    (insertInto table e row).run s = .ok () (table.put (table.rows s ++ [row]) s) :=
  run_insertInto_eq_ok.mpr ⟨hfree, rfl⟩

theorem run_atomically_eq_ok {command : EStateM ε σ α} {a : α} {s s' : σ} :
    (atomically command).run s = .ok a s' ↔ command.run s = .ok a s' := by
  simp only [atomically, EStateM.run]
  split <;> simp_all

theorem run_atomically_of_error {command : EStateM ε σ α} {e : ε} {s s' : σ}
    (h : command.run s = .error e s') : (atomically command).run s = .error e s := by
  simp only [atomically, EStateM.run] at h ⊢
  rw [h]

/-- A raising transaction leaves the state as it was. -/
theorem run_atomically_eq_error {command : EStateM ε σ α} {e : ε} {s s' : σ}
    (h : (atomically command).run s = .error e s') : s' = s := by
  simp only [atomically, EStateM.run] at h
  split at h
  · cases h
  · cases h
    rfl

theorem run_forM_nil_eq_ok {f : ρ → EStateM ε σ PUnit} {s s' : σ} {u : PUnit} :
    (forM [] f : EStateM ε σ PUnit).run s = .ok u s' ↔ s = s' := by
  simp

/-- A loop over a list, one step at a time. -/
theorem run_forM_cons_eq_ok {f : ρ → EStateM ε σ PUnit} {r : ρ} {rs : List ρ} {s s'' : σ}
    {u : PUnit} :
    (forM (r :: rs) f : EStateM ε σ PUnit).run s = .ok u s'' ↔
      ∃ s', (f r).run s = .ok () s' ∧ (forM rs f : EStateM ε σ PUnit).run s' = .ok u s'' := by
  rw [List.forM_cons, run_bind_eq_ok]
  constructor
  · rintro ⟨_, s', h, h'⟩
    exact ⟨s', h, h'⟩
  · rintro ⟨s', h, h'⟩
    exact ⟨_, s', h, h'⟩

/-- A loop whose steps have the effect `g` has the effect of folding `g`. -/
theorem eq_foldl_of_run_forM {f : ρ → EStateM ε σ PUnit} {g : σ → ρ → σ} {rs : List ρ}
    (hstep : ∀ r s s', (f r).run s = .ok () s' → s' = g s r) {s s' : σ} {u : PUnit}
    (hrun : (forM rs f : EStateM ε σ PUnit).run s = .ok u s') : s' = rs.foldl g s := by
  induction rs generalizing s with
  | nil =>
    rw [run_forM_nil_eq_ok] at hrun
    exact hrun.symm
  | cons r rs ih =>
    obtain ⟨s₁, hr, hrs⟩ := run_forM_cons_eq_ok.mp hrun
    rw [List.foldl_cons, ← hstep r s s₁ hr]
    exact ih hrs

/-- Inserting rows one after the other appends them. -/
theorem foldl_put_append (table : Table σ ρ) (rs : List ρ) (s : σ) :
    rs.foldl (fun s r => table.put (table.rows s ++ [r]) s) s =
      table.put (table.rows s ++ rs) s := by
  induction rs generalizing s with
  | nil => rw [List.foldl_nil, List.append_nil, table.put_rows]
  | cons r rs ih =>
    rw [List.foldl_cons, ih, table.rows_put, table.put_put, List.append_assoc,
      List.singleton_append]

/-- A loop of insertions appends its rows. -/
theorem run_forM_insertInto_eq_ok {table : Table σ ρ} {e : ε} {rs : List ρ} {s s' : σ}
    {u : PUnit} (hrun : (forM rs (insertInto table e)).run s = .ok u s') :
    s' = table.put (table.rows s ++ rs) s := by
  rw [← foldl_put_append]
  exact eq_foldl_of_run_forM
    (fun r s s' h => (run_insertInto_eq_ok.mp h).2.symm) hrun

/-- Rows without a clash among themselves and with those of the table are inserted. -/
theorem run_forM_insertInto (table : Table σ ρ) (e : ε) {rs : List ρ} {s : σ}
    (h : (table.rows s ++ rs).Pairwise fun r r' => table.clash r' r = false) :
    (forM rs (insertInto table e)).run s = .ok () (table.put (table.rows s ++ rs) s) := by
  induction rs generalizing s with
  | nil => rw [run_forM_nil_eq_ok, List.append_nil, table.put_rows]
  | cons r rs ih =>
    have hfree : ∀ r' ∈ table.rows s, table.clash r r' = false := fun r' hr' =>
      (List.pairwise_append.mp h).2.2 r' hr' r List.mem_cons_self
    have hrest := ih (s := table.put (table.rows s ++ [r]) s)
      (by rw [table.rows_put, List.append_assoc]; exact h)
    rw [run_forM_cons_eq_ok]
    refine ⟨_, run_insertInto_eq_ok.mpr ⟨hfree, rfl⟩, ?_⟩
    rw [hrest, table.rows_put, table.put_put, List.append_assoc, List.singleton_append]

/-- Rows inserted one after the other have no clash among themselves. -/
theorem pairwise_of_run_forM_insertInto {table : Table σ ρ} {e : ε} {rs : List ρ} {s s' : σ}
    {u : PUnit} (hs : (table.rows s).Pairwise fun r r' => table.clash r' r = false)
    (hrun : (forM rs (insertInto table e)).run s = .ok u s') :
    (table.rows s').Pairwise fun r r' => table.clash r' r = false := by
  induction rs generalizing s with
  | nil =>
    rw [run_forM_nil_eq_ok] at hrun
    exact hrun ▸ hs
  | cons r rs ih =>
    obtain ⟨s₁, hr, hrs⟩ := run_forM_cons_eq_ok.mp hrun
    obtain ⟨hfree, rfl⟩ := run_insertInto_eq_ok.mp hr
    refine ih ?_ hrs
    rw [table.rows_put, List.pairwise_append]
    refine ⟨hs, List.pairwise_singleton _ _, fun r' hr' r'' hr'' => ?_⟩
    rw [List.mem_singleton.mp hr'']
    exact hfree r' hr'

/-! ## What commands keep -/

/-- A command keeps a property of the state, whether it returns or raises. -/
def Keeps (P : σ → Prop) (x : EStateM ε σ α) : Prop := ∀ s, P s → P (stateAfter (x.run s))

variable {P : σ → Prop}

theorem keeps_pure (a : α) : Keeps P (pure a : EStateM ε σ α) := fun _ h => h

theorem keeps_throw (e : ε) : Keeps P (throw e : EStateM ε σ α) := fun _ h => h

/-- What two commands keep they keep one after the other. -/
theorem Keeps.bind {x : EStateM ε σ α} {f : α → EStateM ε σ β} (hx : Keeps P x)
    (hf : ∀ a, Keeps P (f a)) : Keeps P (x >>= f) := by
  intro s hs
  have hxs := hx s hs
  rw [EStateM.run_bind]
  cases hrun : x.run s with
  | ok a s' =>
    rw [hrun] at hxs
    exact hf a s' hxs
  | error e s' =>
    rw [hrun] at hxs
    exact hxs

/-- A command that reads the state first keeps what it keeps from the state it reads. -/
theorem keeps_get_bind {f : σ → EStateM ε σ β}
    (h : ∀ s, P s → P (stateAfter ((f s).run s))) : Keeps P (get >>= f) := by
  intro s hs
  rw [run_bind_of_ok (run_get s)]
  exact h s hs

/-- A command keeps a property of the state, and what it returns or raises meets a
condition. -/
def Yields (P : σ → Prop) (x : EStateM ε σ α) (Q : α → Prop) (E : ε → Prop) : Prop :=
  ∀ s, P s → match x.run s with
    | .ok a s' => P s' ∧ Q a
    | .error e s' => P s' ∧ E e

variable {E : ε → Prop}

theorem Yields.keeps {x : EStateM ε σ α} {Q : α → Prop} (h : Yields P x Q E) : Keeps P x := by
  intro s hs
  have hrun := h s hs
  cases hx : x.run s with
  | ok a s' =>
    rw [hx] at hrun
    exact hrun.1
  | error e s' =>
    rw [hx] at hrun
    exact hrun.1

theorem yields_pure {Q : α → Prop} {a : α} (h : Q a) :
    Yields P (pure a : EStateM ε σ α) Q E := fun _ hs => ⟨hs, h⟩

theorem yields_throw {Q : α → Prop} {e : ε} (h : E e) :
    Yields P (throw e : EStateM ε σ α) Q E := fun _ hs => ⟨hs, h⟩

/-- The state a command reads is one with the property. -/
theorem yields_get : Yields P (get : EStateM ε σ σ) P E := fun _ hs => ⟨hs, hs⟩

theorem yields_set {Q : PUnit → Prop} {t : σ} (ht : P t) (h : Q ⟨⟩) :
    Yields P (set t : EStateM ε σ PUnit) Q E := fun _ _ => ⟨ht, h⟩

theorem yields_modify {Q : PUnit → Prop} {f : σ → σ} (hf : ∀ s, P s → P (f s)) (h : Q ⟨⟩) :
    Yields P (modify f : EStateM ε σ PUnit) Q E := fun s hs => ⟨hf s hs, h⟩

/-- What two commands yield they yield one after the other. -/
theorem Yields.bind {x : EStateM ε σ α} {f : α → EStateM ε σ β} {Q : α → Prop} {R : β → Prop}
    (hx : Yields P x Q E) (hf : ∀ a, Q a → Yields P (f a) R E) : Yields P (x >>= f) R E := by
  intro s hs
  have hxs := hx s hs
  rw [EStateM.run_bind]
  cases hrun : x.run s with
  | ok a s' =>
    rw [hrun] at hxs
    exact hf a hxs.2 s' hxs.1
  | error e s' =>
    rw [hrun] at hxs
    exact hxs

theorem yields_require {p : Prop} [Decidable p] {e : ε} (h : ¬p → E e) :
    Yields P (require p e : EStateM ε σ Unit) (fun _ => p) E := by
  unfold require
  split
  · rename_i hp
    exact yields_pure hp
  · rename_i hp
    exact yields_throw (h hp)

theorem yields_insertInto {table : Table σ ρ} {e : ε} {row : ρ}
    (hput : ∀ s, P s → P (table.put (table.rows s ++ [row]) s)) (he : E e) :
    Yields P (insertInto table e row) (fun _ => True) E :=
  yields_get.bind fun s hs => (yields_require fun _ => he).bind fun _ _ =>
    yields_set (hput s hs) trivial

/-! ## Queries -/

/-- The number after all those of a column, one in an empty table. -/
def nextOrder (orders : List ℕ) : ℕ := orders.foldr max 0 + 1

theorem lt_nextOrder {orders : List ℕ} {n : ℕ} (h : n ∈ orders) : n < nextOrder orders := by
  rw [nextOrder, Nat.lt_succ_iff]
  induction orders with
  | nil => cases h
  | cons m orders ih =>
    rw [List.foldr_cons]
    rcases List.mem_cons.mp h with rfl | h
    · exact le_max_left _ _
    · exact (ih h).trans (le_max_right _ _)

/-- `ORDER BY key DESC LIMIT 1`. -/
def latest {κ : Type} [LinearOrder κ] (key : ρ → κ) (rows : List ρ) : Option ρ :=
  rows.argmax key

theorem mem_of_latest {κ : Type} [LinearOrder κ] {key : ρ → κ} {rows : List ρ} {r : ρ}
    (h : latest key rows = some r) : r ∈ rows :=
  List.argmax_mem h

/-- `ORDER BY key LIMIT 1`. -/
def earliest {κ : Type} [LinearOrder κ] (key : ρ → κ) (rows : List ρ) : Option ρ :=
  rows.argmin key

theorem mem_of_earliest {κ : Type} [LinearOrder κ] {key : ρ → κ} {rows : List ρ} {r : ρ}
    (h : earliest key rows = some r) : r ∈ rows :=
  List.argmin_mem h

/-- A row after all the others is the latest. -/
theorem latest_concat {κ : Type} [LinearOrder κ] {key : ρ → κ} {rows : List ρ} {r : ρ}
    (h : ∀ r' ∈ rows, key r' < key r) : latest key (rows ++ [r]) = some r := by
  rw [latest, List.argmax_concat]
  cases hmax : rows.argmax key with
  | none => rfl
  | some c => exact if_pos (h c (List.argmax_mem hmax))

/-- A row before the latest of the others is not the latest. -/
theorem latest_concat_of_lt {κ : Type} [LinearOrder κ] {key : ρ → κ} {rows : List ρ} {r r' : ρ}
    (hr' : r' ∈ rows) (h : key r < key r') : latest key (rows ++ [r]) = latest key rows := by
  rw [latest, latest, List.argmax_concat]
  cases hmax : rows.argmax key with
  | none => exact absurd (List.argmax_eq_none.mp hmax) (List.ne_nil_of_mem hr')
  | some c => exact if_neg (lt_asymm (h.trans_le (List.le_of_mem_argmax hr' hmax)))

/-- The latest of rows whose keys increase is the last. -/
theorem latest_eq_getLast? {κ : Type} [LinearOrder κ] {key : ρ → κ} {rows : List ρ}
    (h : rows.Pairwise fun r r' => key r < key r') : latest key rows = rows.getLast? := by
  rcases List.eq_nil_or_concat rows with rfl | ⟨rows, r, rfl⟩
  · rfl
  · rw [List.concat_eq_append, List.pairwise_append] at h
    rw [List.concat_eq_append, List.getLast?_concat]
    exact latest_concat fun r' hr' => h.2.2 r' hr' r (List.mem_singleton_self r)

/-! ## Runs -/

/-- What holds at the start of a run and is kept by every step holds at its end. -/
theorem invariant_of_step {step : σ → σ → Prop} {P : σ → Prop}
    (hstep : ∀ s s', P s → step s s' → P s') {s s' : σ}
    (hrun : Relation.ReflTransGen step s s') (hs : P s) : P s' := by
  induction hrun with
  | refl => exact hs
  | tail _ h ih => exact hstep _ _ ih h

end Transaction
