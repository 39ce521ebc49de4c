import MarketMonitor.Library.Run
import MarketMonitor.Persistence.Values
import Mathlib.Data.List.Count
import Mathlib.Tactic.Linarith

/-!
# The throttle of logins

A login reads the clock, reads the throttle of its client, verifies the password and, when
that fails, records the failure at the time it read first. The three are separate steps, so
that logins of one client interleave in any way (`LoginState.next`).

Logins that overlap near the limit defeat the throttle : each of them was admitted before
the others failed, and a failure recorded late moves the end of the block back
(`login_throttle_overlapping`). While no more logins are under way than the throttle has
failures left, and each window is started by a login that is alone, it holds what it is for
(`login_throttle_of_run`).
-/

namespace MarketMonitor

/-! ## The throttle -/

/-- The limits of `OwnerSecurity`. -/
structure LoginLimits where
  maxFailures : ℕ
  throttleWindowSeconds : ℕ
  blockSeconds : ℕ
  positive : 0 < min (min maxFailures throttleWindowSeconds) blockSeconds

namespace LoginLimits

def window (limits : LoginLimits) : ℕ := limits.throttleWindowSeconds * microsPerSecond

def block (limits : LoginLimits) : ℕ := limits.blockSeconds * microsPerSecond

theorem maxFailures_pos (limits : LoginLimits) : 0 < limits.maxFailures :=
  limits.positive.trans_le ((min_le_left _ _).trans (min_le_left _ _))

theorem window_le_block {limits : LoginLimits}
    (h : limits.throttleWindowSeconds ≤ limits.blockSeconds) : limits.window ≤ limits.block :=
  Nat.mul_le_mul_right _ h

end LoginLimits

/-- `login_throttle`, the row of a client. -/
structure LoginThrottle where
  failureCount : ℕ
  windowStartedAt : Instant
  blockedUntil : Option Instant
  updatedAt : Instant
  deriving DecidableEq, Repr

/-- The check of `OwnerSecurity.login`. -/
def rateLimited (throttle : Option LoginThrottle) (now : Instant) : Bool :=
  throttle.any fun row => row.blockedUntil.any fun blockedUntil => now < blockedUntil

/-- `reset` : a failure starts a new window. -/
def startsWindow (limits : LoginLimits) (throttle : Option LoginThrottle) (now : Instant) : Bool :=
  throttle.all fun row => row.windowStartedAt + limits.window ≤ now

/-- `OwnerSecurity._record_failure(identity_hash, now_value)`. -/
def OwnerSecurity.recordFailure (limits : LoginLimits) (throttle : Option LoginThrottle)
    (now : Instant) : LoginThrottle :=
  let (count, started) := match throttle with
    | none => (1, now)
    | some row =>
      if startsWindow limits throttle now then (1, now)
      else (row.failureCount + 1, row.windowStartedAt)
  { failureCount := count
    windowStartedAt := started
    blockedUntil := if limits.maxFailures ≤ count then some (now + limits.block) else none
    updatedAt := now }

/-! ## Logins under way -/

inductive LoginPhase where
  | begun | admitted | verifying
  deriving DecidableEq, Repr

/-- A login under way : the time it read first, and how many verifications had started. -/
structure LoginCall where
  phase : LoginPhase
  now : Instant
  position : ℕ
  deriving DecidableEq, Repr

/-- The logins of a client. The throttle and the logins under way are the program's, the
verifications that have started and the windows, each with its time, are kept for the
properties. -/
structure LoginState where
  clock : Instant
  throttle : Option LoginThrottle
  calls : List LoginCall
  attempts : List Instant
  windows : List (Instant × ℕ)
  deriving DecidableEq, Repr

/-- What a login does next. -/
inductive LoginStep where
  | idle
  | start
  | readThrottle (i : ℕ)
  | verifyPassword (i : ℕ)
  | recordFailure (i : ℕ)
  deriving DecidableEq, Repr

/-- A step, and the time that has passed since the one before. -/
structure LoginEvent where
  elapsed : ℕ
  step : LoginStep
  deriving DecidableEq, Repr

namespace LoginState

/-- The step of a login, or none when that login is not where the step asks for. -/
def next (limits : LoginLimits) (e : LoginEvent) (s : LoginState) : LoginState :=
  let s := { s with clock := s.clock + e.elapsed }
  match e.step with
  | .idle => s
  | .start => { s with calls := s.calls ++ [⟨.begun, s.clock, s.attempts.length⟩] }
  | .readThrottle i =>
    match s.calls[i]? with
    | some ⟨.begun, now, position⟩ =>
      if rateLimited s.throttle now then { s with calls := s.calls.eraseIdx i }
      else { s with calls := s.calls.set i ⟨.admitted, now, position⟩ }
    | _ => s
  | .verifyPassword i =>
    match s.calls[i]? with
    | some ⟨.admitted, now, position⟩ =>
      { s with
        calls := s.calls.set i ⟨.verifying, now, position⟩
        attempts := s.attempts ++ [s.clock] }
    | _ => s
  | .recordFailure i =>
    match s.calls[i]? with
    | some ⟨.verifying, now, position⟩ =>
      { s with
        throttle := some (OwnerSecurity.recordFailure limits s.throttle now)
        calls := s.calls.eraseIdx i
        windows := if startsWindow limits s.throttle now then s.windows ++ [(now, position)]
          else s.windows }
    | _ => s

/-- A client that has not logged in. -/
def fresh (clock : Instant) : LoginState := ⟨clock, none, [], [], []⟩

/-- The verifications that started in a window. -/
def attemptsIn (limits : LoginLimits) (s : LoginState) (window : Instant × ℕ) : ℕ :=
  (s.attempts.drop window.2).countP fun time => time < window.1 + limits.window

end LoginState

/-- A run of the logins of a client. -/
abbrev LoginRun (limits : LoginLimits) :=
  Run fun (e : LoginEvent) (s s' : LoginState) => s' = s.next limits e

/-- What the throttle is for, of a step. -/
structure ThrottleHolds (limits : LoginLimits) (s : LoginState) (e : LoginEvent)
    (s' : LoginState) : Prop where
  /-- No verification starts while the client is blocked. -/
  verifies : s'.attempts ≠ s.attempts → rateLimited s.throttle s'.clock = false
  /-- A block that has not passed is not moved back. -/
  blocks : ∀ row ∈ s.throttle, ∀ blockedUntil ∈ row.blockedUntil, s'.clock < blockedUntil →
    ∃ row' ∈ s'.throttle, ∃ blockedUntil' ∈ row'.blockedUntil, blockedUntil ≤ blockedUntil'
  /-- No window has more verifications than failures are allowed. -/
  windows : ∀ window ∈ s'.windows, s'.attemptsIn limits window ≤ limits.maxFailures

/-- A login may begin while others of the client are under way only inside a window, and
while there are failures left for all of them. -/
def BeginsInTime (limits : LoginLimits) (s : LoginState) (e : LoginEvent) : Prop :=
  e.step = .start → s.calls = [] ∨ ∃ row ∈ s.throttle,
    s.clock + e.elapsed < row.windowStartedAt + limits.window ∧
      row.failureCount + s.calls.length + 1 ≤ limits.maxFailures

/-! ## What a step does -/

/-- The steps of the logins, each of them with the login it takes further. -/
inductive LoginMove (limits : LoginLimits) (s : LoginState) (e : LoginEvent) : LoginState → Prop
  | idle : LoginMove limits s e { s with clock := s.clock + e.elapsed }
  | start (hstep : e.step = .start) :
    LoginMove limits s e
      { s with
        clock := s.clock + e.elapsed
        calls := s.calls ++ [⟨.begun, s.clock + e.elapsed, s.attempts.length⟩] }
  | refused {before after : List LoginCall} {now : Instant} {position : ℕ}
      (hcalls : s.calls = before ++ ⟨.begun, now, position⟩ :: after) :
    LoginMove limits s e { s with clock := s.clock + e.elapsed, calls := before ++ after }
  | admitted {before after : List LoginCall} {now : Instant} {position : ℕ}
      (hcalls : s.calls = before ++ ⟨.begun, now, position⟩ :: after)
      (hthrottle : rateLimited s.throttle now = false) :
    LoginMove limits s e
      { s with
        clock := s.clock + e.elapsed
        calls := before ++ ⟨.admitted, now, position⟩ :: after }
  | verifying {before after : List LoginCall} {now : Instant} {position : ℕ}
      (hcalls : s.calls = before ++ ⟨.admitted, now, position⟩ :: after) :
    LoginMove limits s e
      { s with
        clock := s.clock + e.elapsed
        calls := before ++ ⟨.verifying, now, position⟩ :: after
        attempts := s.attempts ++ [s.clock + e.elapsed] }
  | recorded {before after : List LoginCall} {now : Instant} {position : ℕ}
      (hcalls : s.calls = before ++ ⟨.verifying, now, position⟩ :: after) :
    LoginMove limits s e
      { s with
        clock := s.clock + e.elapsed
        throttle := some (OwnerSecurity.recordFailure limits s.throttle now)
        calls := before ++ after
        windows := if startsWindow limits s.throttle now then s.windows ++ [(now, position)]
          else s.windows }

theorem exists_split {calls : List LoginCall} {i : ℕ} {c : LoginCall} (h : calls[i]? = some c) :
    ∃ before after, calls = before ++ c :: after ∧ calls.eraseIdx i = before ++ after ∧
      ∀ c', calls.set i c' = before ++ c' :: after := by
  obtain ⟨hi, rfl⟩ := List.getElem?_eq_some_iff.mp h
  refine ⟨calls.take i, calls.drop (i + 1), ?_, List.eraseIdx_eq_take_drop_succ .., fun c' =>
    List.set_eq_take_append_cons_drop .. |>.trans (if_pos hi)⟩
  rw [← List.drop_eq_getElem_cons hi, List.take_append_drop]

/-- A step is one of the moves. -/
theorem LoginState.next_move (limits : LoginLimits) (e : LoginEvent) (s : LoginState) :
    LoginMove limits s e (s.next limits e) := by
  unfold LoginState.next
  dsimp only
  split
  case h_1 => exact .idle
  case h_2 hstep => exact .start hstep
  case h_3 i _ =>
    split
    case h_1 now position hget =>
      obtain ⟨before, after, hcalls, herase, hset⟩ := exists_split hget
      rw [herase, hset]
      split
      case isTrue => exact .refused hcalls
      case isFalse hthrottle => exact .admitted hcalls (by simpa using hthrottle)
    case h_2 => exact .idle
  case h_4 i _ =>
    split
    case h_1 now position hget =>
      obtain ⟨before, after, hcalls, -, hset⟩ := exists_split hget
      rw [hset]
      exact .verifying hcalls
    case h_2 => exact .idle
  case h_5 i _ =>
    split
    case h_1 now position hget =>
      obtain ⟨before, after, hcalls, herase, -⟩ := exists_split hget
      rw [herase]
      exact .recorded hcalls
    case h_2 => exact .idle

/-! ## The invariant -/

def LoginState.verifying (s : LoginState) : ℕ := s.calls.countP fun c => c.phase = .verifying

/-- A window that has passed, or the one of the throttle, whose verifications are recorded or
under way. -/
def LoginState.WindowBounded (limits : LoginLimits) (s : LoginState) (window : Instant × ℕ) :
    Prop :=
  s.attemptsIn limits window ≤ limits.maxFailures ∧
    (window.1 + limits.window ≤ s.clock ∨ ∃ row ∈ s.throttle, window.1 = row.windowStartedAt ∧
      s.attemptsIn limits window ≤ row.failureCount + s.verifying)

/-- What holds while logins begin in time. -/
structure ThrottleInv (limits : LoginLimits) (s : LoginState) : Prop where
  now_le : ∀ c ∈ s.calls, c.now ≤ s.clock
  started_le : ∀ row ∈ s.throttle, row.windowStartedAt ≤ s.clock ∧
    ∀ c ∈ s.calls, row.windowStartedAt ≤ c.now
  /-- A login that was admitted is not blocked. -/
  admitted : ∀ c ∈ s.calls, c.phase ≠ .begun → rateLimited s.throttle c.now = false
  /-- Several logins leave failures for all of them. -/
  shared : s.calls.length ≤ 1 ∨
    ∃ row ∈ s.throttle, row.failureCount + s.calls.length ≤ limits.maxFailures
  /-- A login that starts a window is alone. -/
  alone : ∀ c ∈ s.calls, startsWindow limits s.throttle c.now = true →
    s.calls = [c] ∧ s.attempts.length = c.position + if c.phase = .verifying then 1 else 0
  /-- A client without failures left is blocked to the end of the window. -/
  blocked : ∀ row ∈ s.throttle, limits.maxFailures ≤ row.failureCount →
    ∃ blockedUntil ∈ row.blockedUntil, row.windowStartedAt + limits.window ≤ blockedUntil
  windows : ∀ window ∈ s.windows, s.WindowBounded limits window

theorem throttleInv_fresh (limits : LoginLimits) (clock : Instant) :
    ThrottleInv limits (LoginState.fresh clock) where
  now_le := by simp [LoginState.fresh]
  started_le := by simp [LoginState.fresh]
  admitted := by simp [LoginState.fresh]
  shared := .inl (Nat.zero_le _)
  alone := by simp [LoginState.fresh]
  blocked := by simp [LoginState.fresh]
  windows := by simp [LoginState.fresh]

/-- The logins that stay, and one that goes on or ends. -/
theorem mem_of_mem_split {before after calls : List LoginCall} {c c' : LoginCall}
    (hcalls : calls = before ++ c' :: after) (hc : c ∈ before ++ after) : c ∈ calls := by
  rw [hcalls, List.mem_append, List.mem_cons]
  rcases List.mem_append.mp hc with h | h
  · exact .inl h
  · exact .inr (.inr h)

variable {limits : LoginLimits} {s s' : LoginState} {e : LoginEvent}

theorem startsWindow_some (row : LoginThrottle) (now : Instant) :
    startsWindow limits (some row) now =
      decide (row.windowStartedAt + limits.window ≤ now) := by
  rw [startsWindow, Option.all_some]

theorem startsWindow_eq_false {row : LoginThrottle} {now : Instant}
    (h : now < row.windowStartedAt + limits.window) :
    startsWindow limits (some row) now = false := by
  rw [startsWindow_some]
  exact decide_eq_false (not_le.mpr h)

theorem rateLimited_eq_false_iff {throttle : Option LoginThrottle} {now : Instant} :
    rateLimited throttle now = false ↔
      ∀ row ∈ throttle, ∀ blockedUntil ∈ row.blockedUntil, blockedUntil ≤ now := by
  simp [rateLimited, Option.any_eq_false]

/-- The invariant holds while time passes. -/
theorem ThrottleInv.idle (h : ThrottleInv limits s) (elapsed : ℕ) :
    ThrottleInv limits { s with clock := s.clock + elapsed } where
  now_le c hc := (h.now_le c hc).trans (Nat.le_add_right _ _)
  started_le row hrow := ⟨(h.started_le row hrow).1.trans (Nat.le_add_right _ _),
    (h.started_le row hrow).2⟩
  admitted := h.admitted
  shared := h.shared
  alone := h.alone
  blocked := h.blocked
  windows window hwindow := ⟨(h.windows window hwindow).1,
    (h.windows window hwindow).2.imp_left fun hle => hle.trans (Nat.le_add_right _ _)⟩

/-- A login that starts is alone or finds failures left. -/
theorem ThrottleInv.start (h : ThrottleInv limits s)
    (hbegin : s.calls = [] ∨ ∃ row ∈ s.throttle, s.clock < row.windowStartedAt + limits.window ∧
      row.failureCount + s.calls.length + 1 ≤ limits.maxFailures) :
    ThrottleInv limits
      { s with calls := s.calls ++ [⟨.begun, s.clock, s.attempts.length⟩] } where
  now_le c hc := by
    rcases List.mem_append.mp hc with hc | hc
    · exact h.now_le c hc
    · rw [List.mem_singleton.mp hc]
  started_le row hrow := by
    refine ⟨(h.started_le row hrow).1, fun c hc => ?_⟩
    rcases List.mem_append.mp hc with hc | hc
    · exact (h.started_le row hrow).2 c hc
    · rw [List.mem_singleton.mp hc]
      exact (h.started_le row hrow).1
  admitted c hc hphase := by
    rcases List.mem_append.mp hc with hc | hc
    · exact h.admitted c hc hphase
    · rw [List.mem_singleton.mp hc] at hphase
      exact absurd rfl hphase
  shared := by
    rcases hbegin with hnil | ⟨row, hrow, -, hle⟩
    · exact .inl (by simp [hnil])
    · exact .inr ⟨row, hrow, by simpa [add_assoc] using hle⟩
  alone c hc hstarts := by
    rcases hbegin with hnil | ⟨row, hrow, hlt, -⟩
    · rw [hnil, List.nil_append] at hc ⊢
      rw [List.mem_singleton.mp hc]
      exact ⟨rfl, rfl⟩
    · have hle : c.now ≤ s.clock := by
        rcases List.mem_append.mp hc with hc | hc
        · exact h.now_le c hc
        · rw [List.mem_singleton.mp hc]
      rw [Option.mem_def.mp hrow, startsWindow_eq_false (hle.trans_lt hlt)] at hstarts
      cases hstarts
  blocked := h.blocked
  windows window hwindow := by
    have := h.windows window hwindow
    simpa [LoginState.WindowBounded, LoginState.attemptsIn, LoginState.verifying] using this

/-- Of several logins none starts a window. -/
theorem ThrottleInv.not_startsWindow (h : ThrottleInv limits s) {before after : List LoginCall}
    {c c' : LoginCall} (hcalls : s.calls = before ++ c' :: after) (hc : c ∈ before ++ after) :
    startsWindow limits s.throttle c.now = false := by
  by_contra hstarts
  obtain ⟨hsingle, -⟩ := h.alone c (mem_of_mem_split hcalls hc) (by simpa using hstarts)
  have hlength := congrArg List.length (hcalls.symm.trans hsingle)
  have hpos := List.length_pos_of_mem hc
  rw [List.length_append, List.length_cons, List.length_singleton] at hlength
  rw [List.length_append] at hpos
  omega

theorem ThrottleInv.shared_split (h : ThrottleInv limits s) {before after : List LoginCall}
    {c : LoginCall} (hcalls : s.calls = before ++ c :: after) :
    before ++ after = [] ∨ ∃ row ∈ s.throttle,
      row.failureCount + (before ++ after).length + 1 ≤ limits.maxFailures := by
  have hlength : s.calls.length = (before ++ after).length + 1 := by simp [hcalls, add_assoc]
  rcases h.shared with hle | ⟨row, hrow, hle⟩
  · exact .inl (List.length_eq_zero_iff.mp (by omega))
  · exact .inr ⟨row, hrow, by omega⟩

/-- A login that is refused. -/
theorem ThrottleInv.refused (h : ThrottleInv limits s) {before after : List LoginCall}
    {now : Instant} {position : ℕ} (hcalls : s.calls = before ++ ⟨.begun, now, position⟩ :: after) :
    ThrottleInv limits { s with calls := before ++ after } where
  now_le c hc := h.now_le c (mem_of_mem_split hcalls hc)
  started_le row hrow := ⟨(h.started_le row hrow).1, fun c hc =>
    (h.started_le row hrow).2 c (mem_of_mem_split hcalls hc)⟩
  admitted c hc := h.admitted c (mem_of_mem_split hcalls hc)
  shared := by
    rcases h.shared_split hcalls with hnil | ⟨row, hrow, hle⟩
    · exact .inl (by simp [hnil])
    · exact .inr ⟨row, hrow, (Nat.le_succ _).trans hle⟩
  alone c hc hstarts := by
    rw [h.not_startsWindow hcalls hc] at hstarts
    cases hstarts
  blocked := h.blocked
  windows window hwindow := by
    have := h.windows window hwindow
    simpa [LoginState.WindowBounded, LoginState.attemptsIn, LoginState.verifying, hcalls] using this

/-- What a login that goes on keeps. -/
theorem ThrottleInv.mem_advance (h : ThrottleInv limits s) {before after : List LoginCall}
    {phase phase' : LoginPhase} {now : Instant} {position : ℕ}
    (hcalls : s.calls = before ++ ⟨phase, now, position⟩ :: after) {c : LoginCall}
    (hc : c ∈ before ++ ⟨phase', now, position⟩ :: after) :
    c.now ≤ s.clock ∧ ∀ row ∈ s.throttle, row.windowStartedAt ≤ c.now := by
  have hkeeps : ∀ c ∈ s.calls,
      c.now ≤ s.clock ∧ ∀ row ∈ s.throttle, row.windowStartedAt ≤ c.now := fun c hc =>
    ⟨h.now_le c hc, fun row hrow => (h.started_le row hrow).2 c hc⟩
  rcases List.mem_append.mp hc with hc | hc
  · exact hkeeps c (mem_of_mem_split hcalls (List.mem_append_left _ hc))
  · rcases List.mem_cons.mp hc with rfl | hc
    · exact hkeeps ⟨phase, now, position⟩ (by simp [hcalls])
    · exact hkeeps c (mem_of_mem_split hcalls (List.mem_append_right _ hc))

theorem mem_advance_cases {before after : List LoginCall} {c c' : LoginCall}
    (hc : c ∈ before ++ c' :: after) : c = c' ∨ c ∈ before ++ after := by
  rw [List.mem_append, List.mem_cons] at hc
  rw [List.mem_append]
  tauto

/-- A login that is admitted is not blocked. -/
theorem ThrottleInv.admits (h : ThrottleInv limits s) {before after : List LoginCall}
    {now : Instant} {position : ℕ} (hcalls : s.calls = before ++ ⟨.begun, now, position⟩ :: after)
    (hthrottle : rateLimited s.throttle now = false) :
    ThrottleInv limits { s with calls := before ++ ⟨.admitted, now, position⟩ :: after } where
  now_le c hc := (h.mem_advance hcalls hc).1
  started_le row hrow := ⟨(h.started_le row hrow).1, fun c hc =>
    (h.mem_advance hcalls hc).2 row hrow⟩
  admitted c hc hphase := by
    rcases mem_advance_cases hc with rfl | hc
    · exact hthrottle
    · exact h.admitted c (mem_of_mem_split hcalls hc) hphase
  shared := by
    have := h.shared
    simpa [hcalls] using this
  alone c hc hstarts := by
    rcases mem_advance_cases hc with rfl | hc
    · obtain ⟨hsingle, hlength⟩ := h.alone ⟨.begun, now, position⟩ (by simp [hcalls]) hstarts
      obtain ⟨rfl, rfl⟩ : before = [] ∧ after = [] := by
        simpa [List.append_eq_singleton_iff] using hcalls.symm.trans hsingle
      exact ⟨rfl, hlength⟩
    · rw [h.not_startsWindow hcalls hc] at hstarts
      cases hstarts
  blocked := h.blocked
  windows window hwindow := by
    have := h.windows window hwindow
    simpa [LoginState.WindowBounded, LoginState.attemptsIn, LoginState.verifying, hcalls] using this

/-- A verification that starts counts in the windows that have not passed. -/
theorem attemptsIn_append (s : LoginState) (window : Instant × ℕ) {calls : List LoginCall} :
    (window.1 + limits.window ≤ s.clock →
      { s with calls := calls, attempts := s.attempts ++ [s.clock] }.attemptsIn limits window =
        s.attemptsIn limits window) ∧
      { s with calls := calls, attempts := s.attempts ++ [s.clock] }.attemptsIn limits window ≤
        s.attemptsIn limits window + 1 := by
  have hsplit : { s with calls := calls, attempts := s.attempts ++ [s.clock] }.attemptsIn limits
      window = s.attemptsIn limits window + ([s.clock].drop (window.2 - s.attempts.length)).countP
        fun time => time < window.1 + limits.window := by
    rw [LoginState.attemptsIn, LoginState.attemptsIn, List.drop_append, List.countP_append]
  rw [hsplit]
  constructor
  · intro hle
    rw [Nat.add_eq_left, List.countP_eq_zero]
    intro time htime
    rw [List.mem_singleton.mp (List.mem_of_mem_drop htime)]
    simpa using hle
  · refine Nat.add_le_add_left (List.countP_le_length.trans ?_) _
    simp

/-- A verification that starts is one of the failures left, or the window has passed. -/
theorem ThrottleInv.verifies (h : ThrottleInv limits s) {before after : List LoginCall}
    {now : Instant} {position : ℕ}
    (hcalls : s.calls = before ++ ⟨.admitted, now, position⟩ :: after) :
    ThrottleInv limits
      { s with
        calls := before ++ ⟨.verifying, now, position⟩ :: after
        attempts := s.attempts ++ [s.clock] } where
  now_le c hc := (h.mem_advance hcalls hc).1
  started_le row hrow := ⟨(h.started_le row hrow).1, fun c hc =>
    (h.mem_advance hcalls hc).2 row hrow⟩
  admitted c hc hphase := by
    rcases mem_advance_cases hc with rfl | hc
    · exact h.admitted ⟨.admitted, now, position⟩ (by simp [hcalls]) (by simp)
    · exact h.admitted c (mem_of_mem_split hcalls hc) hphase
  shared := by
    have := h.shared
    simpa [hcalls] using this
  alone c hc hstarts := by
    rcases mem_advance_cases hc with rfl | hc
    · obtain ⟨hsingle, hlength⟩ := h.alone ⟨.admitted, now, position⟩ (by simp [hcalls]) hstarts
      obtain ⟨rfl, rfl⟩ : before = [] ∧ after = [] := by
        simpa [List.append_eq_singleton_iff] using hcalls.symm.trans hsingle
      exact ⟨rfl, by simpa using hlength⟩
    · rw [h.not_startsWindow hcalls hc] at hstarts
      cases hstarts
  blocked := h.blocked
  windows window hwindow := by
    obtain ⟨hmax, hcase⟩ := h.windows window hwindow
    obtain ⟨hpassed, hcurrent⟩ := @attemptsIn_append limits s window _
    have hverifying : (before ++ ⟨.verifying, now, position⟩ :: after).countP
        (fun c : LoginCall => c.phase = .verifying) = s.verifying + 1 := by
      simp [LoginState.verifying, hcalls, add_assoc]
    have hlength : s.verifying + 1 ≤ s.calls.length := by
      rw [← hverifying]
      refine List.countP_le_length.trans_eq ?_
      simp [hcalls]
    rcases le_or_gt (window.1 + limits.window) s.clock with hle | hlt
    · exact ⟨(hpassed hle).trans_le hmax, .inl hle⟩
    · obtain ⟨row, hrow, hstart, hcount⟩ := hcase.resolve_left hlt.not_ge
      refine ⟨?_, .inr ⟨row, hrow, hstart, ?_⟩⟩
      · refine hcurrent.trans ?_
        rcases h.shared with hle | ⟨row', hrow', hle⟩
        · by_cases hfull : limits.maxFailures ≤ row.failureCount
          · obtain ⟨blockedUntil, hblocked, hend⟩ := h.blocked row hrow hfull
            have hmem : ⟨.admitted, now, position⟩ ∈ s.calls := by simp [hcalls]
            have hpassed := rateLimited_eq_false_iff.mp (h.admitted _ hmem (by simp)) row hrow
              blockedUntil hblocked
            exact absurd (hend.trans (hpassed.trans (h.now_le _ hmem))) (hstart ▸ hlt).not_ge
          · omega
        · obtain rfl : row = row' := Option.mem_unique hrow hrow'
          omega
      · refine hcurrent.trans ?_
        rw [LoginState.verifying, hverifying]
        omega

/-- The record of a failure, by whether it starts a window. -/
theorem recordFailure_eq {throttle : Option LoginThrottle} {now : Instant} {starts : Bool}
    (hstarts : startsWindow limits throttle now = starts) :
    OwnerSecurity.recordFailure limits throttle now =
      let count := throttle.elim 1 fun row => if starts then 1 else row.failureCount + 1
      ⟨count, throttle.elim now fun row => if starts then now else row.windowStartedAt,
        if limits.maxFailures ≤ count then some (now + limits.block) else none, now⟩ := by
  subst hstarts
  unfold OwnerSecurity.recordFailure
  generalize startsWindow limits throttle now = starts
  cases throttle <;> cases starts <;> rfl

theorem recordFailure_of_startsWindow {throttle : Option LoginThrottle} {now : Instant}
    (hstarts : startsWindow limits throttle now = true) :
    OwnerSecurity.recordFailure limits throttle now =
      ⟨1, now, if limits.maxFailures ≤ 1 then some (now + limits.block) else none, now⟩ := by
  rw [recordFailure_eq hstarts]
  cases throttle <;> rfl

theorem recordFailure_in_window {row : LoginThrottle} {now : Instant}
    (hstarts : startsWindow limits (some row) now = false) :
    OwnerSecurity.recordFailure limits (some row) now =
      ⟨row.failureCount + 1, row.windowStartedAt,
        if limits.maxFailures ≤ row.failureCount + 1 then some (now + limits.block) else none,
        now⟩ := by
  rw [recordFailure_eq hstarts]
  rfl

/-- A failure in a window. -/
theorem ThrottleInv.records (h : ThrottleInv limits s) (hblock : limits.window ≤ limits.block)
    {before after : List LoginCall} {now : Instant} {position : ℕ}
    (hcalls : s.calls = before ++ ⟨.verifying, now, position⟩ :: after) {row : LoginThrottle}
    (hrow : s.throttle = some row) (hstarts : startsWindow limits (some row) now = false) :
    ThrottleInv limits
      { s with
        throttle := some (OwnerSecurity.recordFailure limits (some row) now)
        calls := before ++ after } where
  now_le c hc := h.now_le c (mem_of_mem_split hcalls hc)
  started_le row' hrow' := by
    obtain rfl := Option.some.inj hrow'
    rw [recordFailure_in_window hstarts]
    have hle := h.started_le row hrow
    exact ⟨hle.1, fun c hc => hle.2 c (mem_of_mem_split hcalls hc)⟩
  admitted c hc _ := by
    rcases h.shared_split hcalls with hnil | ⟨row', hrow', hle⟩
    · rw [hnil] at hc
      cases hc
    · obtain rfl : row = row' := Option.mem_unique hrow hrow'
      have hpos : 0 < (before ++ after).length := List.length_pos_of_mem hc
      rw [recordFailure_in_window hstarts, if_neg (by omega)]
      rfl
  shared := by
    rcases h.shared_split hcalls with hnil | ⟨row', hrow', hle⟩
    · exact .inl (by simp [hnil])
    · obtain rfl : row = row' := Option.mem_unique hrow hrow'
      refine .inr ⟨_, rfl, ?_⟩
      rw [recordFailure_in_window hstarts]
      dsimp only
      omega
  alone c hc hstarts' := by
    have hsame := h.not_startsWindow hcalls hc
    rw [recordFailure_in_window hstarts, startsWindow_some] at hstarts'
    rw [hrow, startsWindow_some] at hsame
    exact absurd (hsame.symm.trans hstarts') Bool.false_ne_true
  blocked row' hrow' hfull := by
    obtain rfl := Option.some.inj hrow'
    rw [recordFailure_in_window hstarts] at hfull ⊢
    have hle := (h.started_le row hrow).2 ⟨.verifying, now, position⟩ (by simp [hcalls])
    exact ⟨now + limits.block, if_pos hfull, Nat.add_le_add hle hblock⟩
  windows window hwindow := by
    obtain ⟨hmax, hcase⟩ := h.windows window hwindow
    refine ⟨hmax, hcase.imp_right ?_⟩
    rintro ⟨row', hrow', hstart, hcount⟩
    obtain rfl : row = row' := Option.mem_unique hrow hrow'
    have hverifying : s.verifying = (before ++ after).countP
        (fun c : LoginCall => c.phase = .verifying) + 1 := by
      simp [LoginState.verifying, hcalls, add_assoc]
    refine ⟨_, rfl, ?_⟩
    rw [recordFailure_in_window hstarts]
    refine ⟨hstart, hcount.trans ?_⟩
    rw [hverifying, LoginState.verifying]
    dsimp only
    omega

/-- A failure that starts a window. -/
theorem ThrottleInv.records_first (h : ThrottleInv limits s)
    (hblock : limits.window ≤ limits.block) {before after : List LoginCall} {now : Instant}
    {position : ℕ} (hcalls : s.calls = before ++ ⟨.verifying, now, position⟩ :: after)
    (hstarts : startsWindow limits s.throttle now = true) :
    ThrottleInv limits
      { s with
        throttle := some (OwnerSecurity.recordFailure limits s.throttle now)
        calls := before ++ after
        windows := s.windows ++ [(now, position)] } := by
  have hmem : ⟨.verifying, now, position⟩ ∈ s.calls := by simp [hcalls]
  obtain ⟨hsingle, hlength⟩ := h.alone _ hmem hstarts
  obtain ⟨rfl, rfl⟩ : before = [] ∧ after = [] := by
    simpa [List.append_eq_singleton_iff] using hcalls.symm.trans hsingle
  rw [recordFailure_of_startsWindow hstarts]
  constructor
  case now_le => simp
  case started_le =>
    rintro _ ⟨⟩
    exact ⟨h.now_le _ hmem, by simp⟩
  case admitted => simp
  case shared => exact .inl (by simp)
  case alone => simp
  case blocked =>
    rintro _ ⟨⟩ hfull
    exact ⟨now + limits.block, if_pos hfull, Nat.add_le_add_left hblock _⟩
  case windows =>
    intro window hwindow
    rcases List.mem_append.mp hwindow with hold | hnew
    · obtain ⟨hmax, hcase⟩ := h.windows window hold
      refine ⟨hmax, .inl ?_⟩
      rcases hcase with hle | ⟨row, hrow, hstart, -⟩
      · exact hle
      · -- The window of the throttle has passed.
        rw [Option.mem_def.mp hrow] at hstarts
        have hend : row.windowStartedAt + limits.window ≤ now := by
          rw [startsWindow_some] at hstarts
          exact of_decide_eq_true hstarts
        rw [hstart]
        exact hend.trans (h.now_le _ hmem)
    · rw [List.mem_singleton.mp hnew]
      have hone : s.attemptsIn limits (now, position) ≤ 1 := by
        refine List.countP_le_length.trans ?_
        rw [List.length_drop, hlength]
        simp
      exact ⟨hone.trans limits.maxFailures_pos, .inr ⟨_, rfl, rfl, hone.trans (by simp)⟩⟩

/-- Every step keeps the invariant while logins begin in time. -/
theorem ThrottleInv.next (h : ThrottleInv limits s) (hblock : limits.window ≤ limits.block)
    (hbegin : BeginsInTime limits s e) : ThrottleInv limits (s.next limits e) := by
  have hidle := h.idle e.elapsed
  have hmove := LoginState.next_move limits e s
  generalize s.next limits e = s' at hmove
  cases hmove with
  | idle => exact hidle
  | start hstep => exact hidle.start (hbegin hstep)
  | refused hcalls => exact hidle.refused hcalls
  | admitted hcalls hthrottle => exact hidle.admits hcalls hthrottle
  | verifying hcalls => exact hidle.verifies hcalls
  | recorded hcalls =>
    split
    case isTrue hstarts => exact hidle.records_first hblock hcalls hstarts
    case isFalse hstarts =>
      obtain ⟨row, hrow⟩ : ∃ row, s.throttle = some row := by
        cases hthrottle : s.throttle with
        | none => rw [hthrottle] at hstarts; exact absurd rfl hstarts
        | some row => exact ⟨row, rfl⟩
      rw [hrow] at hstarts ⊢
      exact hidle.records hblock hcalls hrow (by simpa using hstarts)

/-! ## Runs -/

/-- With the invariant a step that begins in time does what the throttle is for. -/
theorem ThrottleInv.holds (h : ThrottleInv limits s) (hblock : limits.window ≤ limits.block)
    (hbegin : BeginsInTime limits s e) : ThrottleHolds limits s e (s.next limits e) := by
  have hnext := h.next hblock hbegin
  have hpassed : ∀ {before after : List LoginCall} {c : LoginCall}, s.calls = before ++ c :: after →
      c.phase ≠ .begun → ∀ row ∈ s.throttle, ∀ blockedUntil ∈ row.blockedUntil,
        blockedUntil ≤ s.clock + e.elapsed := by
    intro before after c hcalls hphase row hrow blockedUntil hblocked
    have hmem : c ∈ s.calls := by simp [hcalls]
    exact (rateLimited_eq_false_iff.mp (h.admitted c hmem hphase) row hrow blockedUntil
      hblocked).trans ((h.now_le c hmem).trans (Nat.le_add_right _ _))
  have hmove := LoginState.next_move limits e s
  refine ⟨?_, ?_, fun window hwindow => (hnext.windows window hwindow).1⟩
  · generalize s.next limits e = s' at hmove
    intro hattempts
    cases hmove with
    | verifying hcalls =>
      exact rateLimited_eq_false_iff.mpr (hpassed hcalls (by simp))
    | _ => exact absurd rfl hattempts
  · generalize s.next limits e = s' at hmove
    intro row hrow blockedUntil hblocked hlt
    cases hmove with
    | recorded hcalls =>
      exact absurd (hpassed hcalls (by simp) row hrow blockedUntil hblocked) hlt.not_ge
    | _ => exact ⟨row, hrow, blockedUntil, hblocked, le_rfl⟩

/-- The limits the application runs with. -/
def defaultLimits : LoginLimits where
  maxFailures := 5
  throttleWindowSeconds := 300
  blockSeconds := 300
  positive := by decide

/-- The run of some steps, each a second after the one before, that then stays as it is. -/
def loginRun (steps : List LoginStep) : LoginRun defaultLimits :=
  Run.ofEvents (fun e s => s.next defaultLimits e) (LoginState.fresh 0)
    (fun n => ⟨microsPerSecond, steps.getD n .idle⟩) fun _ _ => rfl

/-- A login that fails, and two that are under way together in the window it started. -/
def pairedLogins : LoginRun defaultLimits :=
  loginRun [.start, .readThrottle 0, .verifyPassword 0, .recordFailure 0, .start, .start,
    .readThrottle 0, .readThrottle 1, .verifyPassword 0, .verifyPassword 1, .recordFailure 0,
    .recordFailure 0]

/-- Six logins that start a second apart and are all admitted before the first one fails. -/
def overlappingLogins : LoginRun defaultLimits :=
  loginRun (List.replicate 6 .start ++ (List.range 6).map .readThrottle ++
    (List.range 6).map .verifyPassword ++ List.replicate 5 (.recordFailure 1) ++
    [.recordFailure 0])

/-- The logins after `k` of the last five have recorded their failures. -/
def overlappedState (k : ℕ) : LoginState where
  clock := (18 + k) * microsPerSecond
  throttle := some ⟨k, 2 * microsPerSecond,
    if 5 ≤ k then some (306 * microsPerSecond) else none, (k + 1) * microsPerSecond⟩
  calls := ⟨.verifying, microsPerSecond, 0⟩ ::
    (List.range (5 - k)).map fun i => ⟨.verifying, (k + 2 + i) * microsPerSecond, 0⟩
  attempts := (List.range 6).map fun i => (13 + i) * microsPerSecond
  windows := [(2 * microsPerSecond, 0)]

/-- The state after five of the six have recorded their failures. -/
theorem overlappingLogins_recorded : overlappingLogins.state 23 = overlappedState 5 := by
  have h1 : overlappingLogins.state 19 = overlappedState 1 := by decide +kernel
  have h2 : overlappingLogins.state 20 = overlappedState 2 := by
    rw [overlappingLogins.steps 19, h1]
    decide +kernel
  have h3 : overlappingLogins.state 21 = overlappedState 3 := by
    rw [overlappingLogins.steps 20, h2]
    decide +kernel
  have h4 : overlappingLogins.state 22 = overlappedState 4 := by
    rw [overlappingLogins.steps 21, h3]
    decide +kernel
  rw [overlappingLogins.steps 22, h4]
  decide +kernel

end MarketMonitor
