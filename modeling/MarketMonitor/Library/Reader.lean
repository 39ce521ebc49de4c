import Mathlib.Data.List.Forall2
import MarketMonitor.Library.Transaction

/-!
# Readers

A reader takes symbols from the front of a text and returns what they denote with the rest
of the text, or it raises. `Reads x taken a` says that `taken` is read as `a` whatever
follows it. A reader is `Local` when everything it returns is such a fact, so that it never
looks past what it takes : then the text of a sequence of readers splits into the texts of
its steps (`Local.reads_bind`), and a text that is read as a whole is no longer read when
something is added or missing (`Reads.prefix_free`).

Every lemma is about one construct, and the facts about a reader are put together along its
definition.
-/

namespace Reading

open Transaction

/-- A computation that reads the front of a text. -/
abbrev Reader (σ ε α : Type) : Type := StateT (List σ) (Except ε) α

variable {σ ε α β : Type} {raised : ε → Prop}

/-! ## What a text is read as -/

/-- `taken` is read as `a`, whatever follows it. -/
def Reads (x : Reader σ ε α) (taken : List σ) (a : α) : Prop :=
  ∀ rest, x (taken ++ rest) = .ok (a, rest)

theorem Reads.pure (a : α) : Reads (pure a : Reader σ ε α) [] a := fun _ => rfl

theorem Reads.bind {x : Reader σ ε α} {f : α → Reader σ ε β} {taken taken' : List σ} {a : α}
    {b : β} (hx : Reads x taken a) (hf : Reads (f a) taken' b) :
    Reads (x >>= f) (taken ++ taken') b := by
  intro rest
  refine except_bind_eq_ok.mpr ⟨(a, taken' ++ rest), ?_, hf rest⟩
  rw [List.append_assoc]
  exact hx _

/-- A text is read as one thing only. -/
theorem Reads.unique {x : Reader σ ε α} {taken : List σ} {a b : α} (ha : Reads x taken a)
    (hb : Reads x taken b) : a = b := by
  have h := (ha []).symm.trans (hb [])
  cases h
  rfl

/-- A text that is read is not the beginning of another one. -/
theorem Reads.prefix_free {x : Reader σ ε α} {taken more : List σ} {a b : α}
    (ha : Reads x taken a) (hb : Reads x (taken ++ more) b) : more = [] := by
  have h := ha more
  have h' := hb []
  rw [List.append_nil, h] at h'
  cases h'
  rfl

/-! ## Readers that look at nothing else -/

/-- A reader that returns nothing but what the text it takes is read as, and raises nothing
but what `raised` allows. -/
structure Local (raised : ε → Prop) (x : Reader σ ε α) : Prop where
  reads : ∀ {text a rest}, x text = .ok (a, rest) → ∃ taken, text = taken ++ rest ∧
    Reads x taken a
  raises : ∀ {text e}, x text = .error e → raised e

namespace Local

theorem pure (a : α) : Local raised (pure a : Reader σ ε α) where
  reads h := by
    cases h
    exact ⟨[], rfl, Reads.pure a⟩
  raises h := by cases h

/-- What is local is so one after the other. -/
theorem bind {x : Reader σ ε α} {f : α → Reader σ ε β} (hx : Local raised x)
    (hf : ∀ a, Local raised (f a)) : Local raised (x >>= f) where
  reads h := by
    obtain ⟨⟨a, middle⟩, ha, hb⟩ := except_bind_eq_ok.mp h
    obtain ⟨taken, rfl, hreads⟩ := hx.reads ha
    obtain ⟨taken', rfl, hreads'⟩ := (hf a).reads hb
    exact ⟨taken ++ taken', (List.append_assoc ..).symm, hreads.bind hreads'⟩
  raises {text e} h := by
    change (x text >>= fun p => f p.1 p.2) = .error e at h
    cases hx' : x text with
    | error e' =>
      rw [hx'] at h
      cases h
      exact hx.raises hx'
    | ok p =>
      rw [hx'] at h
      exact (hf p.1).raises h

/-- A computation that reads nothing. -/
theorem lift {x : Except ε α} (h : ∀ e, x = .error e → raised e) :
    Local raised (liftM x : Reader σ ε α) where
  reads {text a rest} hx := by
    cases x with
    | error e => cases hx
    | ok a =>
      cases hx
      exact ⟨[], rfl, fun _ => rfl⟩
  raises {text e} hx := by
    cases x with
    | error e =>
      cases hx
      exact h e rfl
    | ok a => cases hx

/-- The text of two steps is the text of the first followed by that of the second. -/
theorem reads_bind {x : Reader σ ε α} {f : α → Reader σ ε β} (hx : Local raised x)
    (hf : ∀ a, Local raised (f a)) {text : List σ} {b : β} :
    Reads (x >>= f) text b ↔ ∃ taken taken' a, text = taken ++ taken' ∧ Reads x taken a ∧
      Reads (f a) taken' b := by
  constructor
  · intro h
    obtain ⟨⟨a, middle⟩, ha, hb⟩ := except_bind_eq_ok.mp (h [])
    obtain ⟨taken, htext, hreads⟩ := hx.reads ha
    obtain ⟨taken', rfl, hreads'⟩ := (hf a).reads hb
    rw [List.append_nil, List.append_nil] at htext
    exact ⟨taken, taken', a, htext, hreads, hreads'⟩
  · rintro ⟨taken, taken', a, rfl, ha, hb⟩
    exact ha.bind hb

end Local

/-! ## Computations that read nothing -/

theorem Reads.lift {x : Except ε α} {a : α} (h : x = .ok a) :
    Reads (liftM x : Reader σ ε α) [] a := by
  subst h
  exact fun _ => rfl

/-- A result that is lifted reads nothing. -/
theorem reads_lift {x : Except ε α} {text : List σ} {a : α} :
    Reads (liftM x : Reader σ ε α) text a ↔ text = [] ∧ x = .ok a := by
  constructor
  · intro h
    cases x with
    | error e => cases h []
    | ok b =>
      have h := h []
      rw [List.append_nil] at h
      cases h
      exact ⟨rfl, rfl⟩
  · rintro ⟨rfl, h⟩
    exact Reads.lift h

theorem reads_pure {text : List σ} {a b : α} :
    Reads (Pure.pure a : Reader σ ε α) text b ↔ text = [] ∧ a = b := by
  constructor
  · intro h
    have h := h []
    rw [List.append_nil] at h
    cases h
    exact ⟨rfl, rfl⟩
  · rintro ⟨rfl, rfl⟩
    exact Reads.pure a

/-! ## Repetition -/

/-- Read `n` things in a row. -/
def times : ℕ → Reader σ ε α → Reader σ ε (List α)
  | 0, _ => pure []
  | n + 1, x => do
    let a ← x
    let as ← times n x
    return a :: as

theorem Local.times {x : Reader σ ε α} (h : Local raised x) : ∀ n, Local raised (times n x)
  | 0 => .pure []
  | n + 1 => h.bind fun _ => (Local.times h n).bind fun _ => .pure _

/-- What is read `n` times over is a sequence of `n` texts. -/
theorem Local.reads_times {x : Reader σ ε α} (h : Local raised x) {n : ℕ} {text : List σ}
    {as : List α} : Reads (Reading.times n x) text as ↔
      as.length = n ∧ ∃ parts, text = parts.flatten ∧ List.Forall₂ (Reads x) parts as := by
  induction n generalizing text as with
  | zero =>
    refine reads_pure.trans ⟨?_, ?_⟩
    · rintro ⟨rfl, rfl⟩
      exact ⟨rfl, [], rfl, .nil⟩
    · rintro ⟨hlength, parts, rfl, hparts⟩
      obtain rfl := List.length_eq_zero_iff.mp hlength
      cases hparts
      exact ⟨rfl, rfl⟩
  | succ n ih =>
    rw [Reading.times, h.reads_bind fun _ => (h.times n).bind fun _ => .pure _]
    constructor
    · rintro ⟨taken, text, a, rfl, ha, htext⟩
      obtain ⟨text, last, as, rfl, has, hlast⟩ :=
        ((h.times n).reads_bind fun _ => .pure _).mp htext
      obtain ⟨rfl, rfl⟩ := reads_pure.mp hlast
      obtain ⟨rfl, parts, rfl, hparts⟩ := ih.mp has
      exact ⟨rfl, taken :: parts, by simp, .cons ha hparts⟩
    · rintro ⟨hlength, parts, rfl, hparts⟩
      cases hparts with
      | nil => cases hlength
      | @cons taken a parts as ha hparts =>
        refine ⟨taken, parts.flatten, a, rfl, ha, ?_⟩
        have has := ih.mpr ⟨Nat.succ.inj hlength, parts, rfl, hparts⟩
        have := has.bind (f := fun as => Pure.pure (a :: as)) (Reads.pure (a :: as))
        rwa [List.append_nil] at this

/-- Read `n` things in a row, each with what the one before it has left to it. -/
def timesFrom : ℕ → (β → Reader σ ε (α × β)) → β → Reader σ ε (List α)
  | 0, _, _ => pure []
  | n + 1, x, b => do
    let (a, b) ← x b
    let as ← timesFrom n x b
    return a :: as

/-- Texts that are read one after the other, from what `b` leaves. -/
inductive ReadsFrom (x : β → Reader σ ε (α × β)) : β → List (List σ) → List α → Prop
  | nil (b : β) : ReadsFrom x b [] []
  | cons {b b' : β} {taken : List σ} {a : α} {parts : List (List σ)} {as : List α}
      (ha : Reads (x b) taken (a, b')) (has : ReadsFrom x b' parts as) :
      ReadsFrom x b (taken :: parts) (a :: as)

theorem ReadsFrom.length_eq {x : β → Reader σ ε (α × β)} {b : β} {parts : List (List σ)}
    {as : List α} (h : ReadsFrom x b parts as) : parts.length = as.length := by
  induction h with
  | nil => rfl
  | cons _ _ ih => rw [List.length_cons, List.length_cons, ih]

theorem Local.timesFrom {x : β → Reader σ ε (α × β)} (h : ∀ b, Local raised (x b)) :
    ∀ n b, Local raised (timesFrom n x b)
  | 0, _ => .pure []
  | n + 1, b => (h b).bind fun _ => (Local.timesFrom h n _).bind fun _ => .pure _

/-- Reading a number of times reads as many parts. -/
theorem Local.reads_timesFrom {x : β → Reader σ ε (α × β)} (h : ∀ b, Local raised (x b)) {n : ℕ}
    {b : β} {text : List σ} {as : List α} : Reads (Reading.timesFrom n x b) text as ↔
      as.length = n ∧ ∃ parts, text = parts.flatten ∧ ReadsFrom x b parts as := by
  induction n generalizing b text as with
  | zero =>
    refine reads_pure.trans ⟨?_, ?_⟩
    · rintro ⟨rfl, rfl⟩
      exact ⟨rfl, [], rfl, .nil b⟩
    · rintro ⟨hlength, parts, rfl, hparts⟩
      obtain rfl := List.length_eq_zero_iff.mp hlength
      cases hparts
      exact ⟨rfl, rfl⟩
  | succ n ih =>
    rw [Reading.timesFrom,
      (h b).reads_bind fun _ => (Local.timesFrom h n _).bind fun _ => .pure _]
    constructor
    · rintro ⟨taken, text, ⟨a, b'⟩, rfl, ha, htext⟩
      obtain ⟨text, last, as, rfl, has, hlast⟩ :=
        ((Local.timesFrom h n b').reads_bind fun _ => .pure _).mp htext
      obtain ⟨rfl, rfl⟩ := reads_pure.mp hlast
      obtain ⟨rfl, parts, rfl, hparts⟩ := ih.mp has
      exact ⟨rfl, taken :: parts, by simp, .cons ha hparts⟩
    · rintro ⟨hlength, parts, rfl, hparts⟩
      cases hparts with
      | nil => cases hlength
      | @cons _ b' taken a parts as ha hparts =>
        refine ⟨taken, parts.flatten, (a, b'), rfl, ha, ?_⟩
        have has := ih.mpr ⟨Nat.succ.inj hlength, parts, rfl, hparts⟩
        have := has.bind (f := fun as => Pure.pure (a :: as)) (Reads.pure (a :: as))
        rwa [List.append_nil] at this

/-! ## Whole texts -/

/-- Read all of a text, or raise `e`. -/
def whole (e : ε) (x : Reader σ ε α) (text : List σ) : Except ε α :=
  match x text with
  | .ok (a, []) => .ok a
  | .ok (_, _ :: _) => .error e
  | .error e => .error e

/-- A text is read as a whole when it is read without rest. -/
theorem Local.whole_eq_ok {x : Reader σ ε α} (h : Local raised x) {e : ε} {text : List σ} {a : α} :
    whole e x text = .ok a ↔ Reads x text a := by
  unfold whole
  constructor
  · intro hwhole
    split at hwhole
    · rename_i hx
      cases hwhole
      obtain ⟨taken, rfl, hreads⟩ := h.reads hx
      rwa [List.append_nil]
    · cases hwhole
    · cases hwhole
  · intro hreads
    have hx := hreads []
    rw [List.append_nil] at hx
    rw [hx]

theorem Local.whole_raises {x : Reader σ ε α} (h : Local raised x) {e e' : ε} {text : List σ}
    (he : raised e) (hwhole : whole e x text = .error e') : raised e' := by
  unfold whole at hwhole
  split at hwhole
  · cases hwhole
  · cases hwhole
    exact he
  · rename_i hx
    cases hwhole
    exact h.raises hx

end Reading
