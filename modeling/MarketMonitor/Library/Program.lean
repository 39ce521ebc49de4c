import Mathlib.Data.List.Basic

/-!
# Programs of calls

A program that calls its environment, as a tree : each call has a branch for every answer,
and an answer may be an exception. `Program.handle` runs a part of a program and goes on in
one of two ways, depending on whether it raised.

A history is the calls that were made with their answers. `Holds allowed Q` says of a
program that every call it makes is allowed after the calls before it, and that its outcome
meets `Q`. The rules `Holds.handle`, `Holds.bind` and `holds_perform` prove it along a
program ; `Holds.of_call` and `Holds.of_pure` read it back for every way the environment may
answer.

`Guarded allowed hears Q` says the same of a program over a state : `hears` relates a state and
a call to the answers it may have there, each with the state after it. A program that shares
its state with others is guarded when it keeps to what is allowed as long as the others do.
-/

/-- A program whose calls `op` are answered with an `Ans op` or an exception. -/
inductive Program (Op : Type) (Ans : Op → Type) (ε α : Type) : Type where
  | pure (a : α)
  | throw (e : ε)
  | call (op : Op) (next : Except ε (Ans op) → Program Op Ans ε α)

namespace Program

variable {Op : Type} {Ans : Op → Type} {ε α β : Type}

/-- Go on with the value of a program, or with what it raised. -/
def handle (onError : ε → Program Op Ans ε β) (onOk : α → Program Op Ans ε β) :
    Program Op Ans ε α → Program Op Ans ε β
  | pure a => onOk a
  | throw e => onError e
  | call op next => call op fun answer => handle onError onOk (next answer)

/-- The value of an answer, or its exception. -/
def ofExcept : Except ε α → Program Op Ans ε α
  | .ok a => pure a
  | .error e => throw e

/-- One call. -/
def perform (op : Op) : Program Op Ans ε (Ans op) := call op ofExcept

instance : Monad (Program Op Ans ε) where
  pure := pure
  bind x f := handle throw f x

/-- A call with its answer. -/
abbrev Event (Op : Type) (Ans : Op → Type) (ε : Type) := (op : Op) × Except ε (Ans op)

/-- What is left of a program after some calls and their answers. -/
inductive Trace : Program Op Ans ε α → List (Event Op Ans ε) → Program Op Ans ε α → Prop where
  | nil (p) : Trace p [] p
  | cons {op} {next : Except ε (Ans op) → Program Op Ans ε α} {answer log p}
      (rest : Trace (next answer) log p) : Trace (call op next) (⟨op, answer⟩ :: log) p

/-- A call that is answered with a value. -/
theorem Trace.perform_bind {op : Op} {a : Ans op} {f : Ans op → Program Op Ans ε α}
    {log : List (Event Op Ans ε)} {p : Program Op Ans ε α} (h : Trace (f a) log p) :
    Trace (perform op >>= f) (⟨op, .ok a⟩ :: log) p :=
  Trace.cons h

/-- The first calls of a program when each call has one answer, and what is left. -/
def follow (answers : (op : Op) → Except ε (Ans op)) :
    ℕ → Program Op Ans ε α → List (Event Op Ans ε) × Program Op Ans ε α
  | n + 1, call op next =>
    let (log, rest) := follow answers n (next (answers op))
    (⟨op, answers op⟩ :: log, rest)
  | _, p => ([], p)
termination_by structural n => n

theorem trace_follow (answers : (op : Op) → Except ε (Ans op)) (n : ℕ)
    (p : Program Op Ans ε α) : Trace p (follow answers n p).1 (follow answers n p).2 := by
  induction n generalizing p with
  | zero => exact Trace.nil p
  | succ n ih =>
    cases p with
    | call op next => exact Trace.cons (ih (next (answers op)))
    | pure a => exact Trace.nil _
    | throw e => exact Trace.nil _

/-! ## Allowed calls -/

variable {allowed : List (Event Op Ans ε) → Op → Prop}
  {Q : List (Event Op Ans ε) → Except ε α → Prop}

/-- Every call is allowed after the calls before it, and the outcome meets `Q`. -/
def Holds (allowed : List (Event Op Ans ε) → Op → Prop)
    (Q : List (Event Op Ans ε) → Except ε α → Prop) :
    Program Op Ans ε α → List (Event Op Ans ε) → Prop
  | pure a, history => Q history (.ok a)
  | throw e, history => Q history (.error e)
  | call op next, history => allowed history op ∧
      ∀ answer, Holds allowed Q (next answer) (history ++ [⟨op, answer⟩])

variable {history : List (Event Op Ans ε)} {p : Program Op Ans ε α}

theorem Holds.mono {R : List (Event Op Ans ε) → Except ε α → Prop}
    (h : p.Holds allowed Q history) (hpost : ∀ history r, Q history r → R history r) :
    p.Holds allowed R history := by
  induction p generalizing history with
  | pure a => exact hpost _ _ h
  | throw e => exact hpost _ _ h
  | call op next ih => exact ⟨h.1, fun answer => ih answer (h.2 answer)⟩

/-- A part of a program, and what follows it. -/
theorem Holds.handle {R : List (Event Op Ans ε) → Except ε β → Prop}
    {onError : ε → Program Op Ans ε β} {onOk : α → Program Op Ans ε β}
    (h : p.Holds allowed Q history)
    (herror : ∀ history e, Q history (.error e) → (onError e).Holds allowed R history)
    (hok : ∀ history a, Q history (.ok a) → (onOk a).Holds allowed R history) :
    (p.handle onError onOk).Holds allowed R history := by
  induction p generalizing history with
  | pure a => exact hok _ _ h
  | throw e => exact herror _ _ h
  | call op next ih => exact ⟨h.1, fun answer => ih answer (h.2 answer)⟩

theorem Holds.bind {R : List (Event Op Ans ε) → Except ε β → Prop}
    {f : α → Program Op Ans ε β} (h : p.Holds allowed Q history)
    (herror : ∀ history e, Q history (.error e) → R history (.error e))
    (hok : ∀ history a, Q history (.ok a) → (f a).Holds allowed R history) :
    (p >>= f).Holds allowed R history :=
  h.handle herror hok

theorem holds_perform {op : Op} {Q : List (Event Op Ans ε) → Except ε (Ans op) → Prop}
    (hallowed : allowed history op) (hpost : ∀ answer, Q (history ++ [⟨op, answer⟩]) answer) :
    (perform op).Holds allowed Q history := by
  refine ⟨hallowed, fun answer => ?_⟩
  cases answer with
  | ok a => exact hpost (.ok a)
  | error e => exact hpost (.error e)

/-- What is left after some calls. -/
theorem Holds.trace {log : List (Event Op Ans ε)} {p' : Program Op Ans ε α}
    (h : p.Holds allowed Q history) (htrace : Trace p log p') :
    p'.Holds allowed Q (history ++ log) := by
  induction htrace generalizing history with
  | nil p => rwa [List.append_nil]
  | @cons op next answer log p rest ih =>
    have hrest := ih (h.2 answer)
    rwa [List.append_assoc, List.singleton_append] at hrest

/-- A call that is made is allowed after the calls before it. -/
theorem Holds.of_call {log : List (Event Op Ans ε)} {op : Op}
    {next : Except ε (Ans op) → Program Op Ans ε α} (h : p.Holds allowed Q [])
    (htrace : Trace p log (call op next)) : allowed log op :=
  (h.trace htrace).1

/-- The value a program ends with. -/
theorem Holds.of_pure {log : List (Event Op Ans ε)} {a : α} (h : p.Holds allowed Q [])
    (htrace : Trace p log (pure a)) : Q log (.ok a) :=
  h.trace htrace

/-! ## Guarded programs -/

section

variable {S : Type} {may : S → Op → Prop}
  {hears : S → (op : Op) → Except ε (Ans op) → S → Prop} {Q : S → Except ε α → Prop} {s : S}

/-- Every call is allowed in the state it is made in, and the outcome meets `Q`, when each call
hears one of the answers of its state and leaves the state that goes with it. -/
def Guarded (may : S → Op → Prop) (hears : S → (op : Op) → Except ε (Ans op) → S → Prop)
    (Q : S → Except ε α → Prop) : Program Op Ans ε α → S → Prop
  | pure a, s => Q s (.ok a)
  | throw e, s => Q s (.error e)
  | call op next, s => may s op ∧
      ∀ answer s', hears s op answer s' → Guarded may hears Q (next answer) s'

/-- A part of a program, and what follows it. -/
theorem Guarded.handle {R : S → Except ε β → Prop} {onError : ε → Program Op Ans ε β}
    {onOk : α → Program Op Ans ε β} (h : p.Guarded may hears Q s)
    (herror : ∀ s e, Q s (.error e) → (onError e).Guarded may hears R s)
    (hok : ∀ s a, Q s (.ok a) → (onOk a).Guarded may hears R s) :
    (p.handle onError onOk).Guarded may hears R s := by
  induction p generalizing s with
  | pure a => exact hok _ _ h
  | throw e => exact herror _ _ h
  | call op next ih => exact ⟨h.1, fun answer s' hs' => ih answer (h.2 answer s' hs')⟩

theorem Guarded.bind {R : S → Except ε β → Prop} {f : α → Program Op Ans ε β}
    (h : p.Guarded may hears Q s) (herror : ∀ s e, Q s (.error e) → R s (.error e))
    (hok : ∀ s a, Q s (.ok a) → (f a).Guarded may hears R s) :
    (p >>= f).Guarded may hears R s :=
  h.handle herror hok

theorem Guarded.mono {R : S → Except ε α → Prop} (h : p.Guarded may hears Q s)
    (hpost : ∀ s r, Q s r → R s r) : p.Guarded may hears R s := by
  induction p generalizing s with
  | pure a => exact hpost _ _ h
  | throw e => exact hpost _ _ h
  | call op next ih => exact ⟨h.1, fun answer s' hs' => ih answer (h.2 answer s' hs')⟩

theorem guarded_perform {op : Op} {Q : S → Except ε (Ans op) → Prop} (hmay : may s op)
    (hpost : ∀ answer s', hears s op answer s' → Q s' answer) :
    (perform op).Guarded may hears Q s := by
  refine ⟨hmay, fun answer s' hs' => ?_⟩
  cases answer with
  | ok a => exact hpost (.ok a) s' hs'
  | error e => exact hpost (.error e) s' hs'

end

end Program
