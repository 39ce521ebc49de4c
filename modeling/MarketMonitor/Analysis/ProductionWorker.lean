import MarketMonitor.MarketData.TradingClock
import MarketMonitor.Persistence.Instants

/-!
# The production worker

A tick of the worker finds the minute that is complete at its instant and starts one cycle
for it, unless the last cycle was for the same minute.
-/

namespace MarketMonitor

/-! ## Ticks -/

/-- `WorkerTick.status` -/
inductive TickStatus where
  | noCycle
  | skippedDuplicate
  | skippedBusy
  | skippedDisabled
  | failed
  | completed
  deriving DecidableEq, Repr

/-- The class and the text of an exception a cycle ended with. -/
structure CycleError where
  typeName : String
  text : String
  deriving DecidableEq, Repr

/-- `WorkerTick` -/
structure WorkerTick (ρ : Type) where
  status : TickStatus
  cycleKey : Option String
  targetMinute : Option Instant
  result : Option ρ
  reason : Option String
  deriving DecidableEq, Repr

/-- `CycleRunner` : what runs a cycle, given its key and the instant of the tick. -/
abbrev CycleRunner (ρ : Type) := String → Instant → Except CycleError ρ

/-- `ContinuousProductionWorker`, with its two bounds. -/
structure ContinuousProductionWorker (ρ : Type) where
  clock : String → TradingCalendar
  runCycle : Option (CycleRunner ρ)
  closeGrace : ℕ
  valid : closeGrace ≤ 10 * microsPerSecond

/-- What a worker remembers : the key of the last cycle, and whether one is running. -/
structure WorkerState where
  lastCycleKey : Option String
  cycleLock : Bool
  deriving DecidableEq, Repr

/-- The state of a new worker. -/
def WorkerState.new : WorkerState := ⟨none, false⟩

/-- The date and the time of day of an instant of the market's zone, `YYYY-MM-DD:HH:MM`. -/
def marketMinute (market : Instant) : String :=
  let (year, month, day) := civil (market / microsPerDay)
  let minute := market % microsPerDay / minutes 1
  String.ofList (zeroPad 4 year ++ '-' :: zeroPad 2 month ++ '-' :: zeroPad 2 day ++
    ':' :: zeroPad 2 (minute / 60) ++ ':' :: zeroPad 2 (minute % 60))

/-- The key of the cycle for a minute. -/
def cycleKey (target : Instant) : String := marketMinute (target + chinaOffset)

example : cycleKey 63902745060000000 = "2025-12-31:10:31" := by decide +kernel

namespace ContinuousProductionWorker

variable {ρ : Type} (w : ContinuousProductionWorker ρ)

/-- `_target(observed_at)`. -/
def target (observedAt : Instant) : Option Instant × String :=
  let phase := (w.clock "SSE").phaseAt observedAt
  if phase ≠ (w.clock "SZSE").phaseAt observedAt then (none, "EXCHANGE_PHASE_MISMATCH")
  else if phase ∈ continuousSessionPhases then
    match (w.clock "SSE").latestCompletedContinuousMinute observedAt,
      (w.clock "SZSE").latestCompletedContinuousMinute observedAt with
    | some minute, some other =>
      if minute ≠ other then (none, "EXCHANGE_TARGET_MISMATCH") else (some minute, "READY")
    | _, _ => (none, "NO_COMPLETED_LEGAL_MINUTE")
  else
    match (w.clock "SSE").latestCompletedLegalMinute observedAt with
    | none => (none, "SESSION_NOT_CONTINUOUS")
    | some minute =>
      if some minute ≠ (w.clock "SZSE").latestCompletedLegalMinute observedAt then
        (none, "SESSION_NOT_CONTINUOUS")
      else if w.closeGrace < observedAt - minute then (none, "SESSION_NOT_CONTINUOUS")
      else if minuteFloor observedAt ≠ minute then (none, "SESSION_NOT_CONTINUOUS")
      else (some minute, "READY_AT_SESSION_CLOSE")

/-- `tick(observed_at)`. The lock is taken for the cycle and released after it. -/
def tick (s : WorkerState) (observedAt : Instant) : WorkerTick ρ × WorkerState :=
  match w.target observedAt with
  | (none, reason) => (⟨.noCycle, none, none, none, some reason⟩, s)
  | (some minute, _) =>
    let key := cycleKey minute
    if s.lastCycleKey = some key then
      (⟨.skippedDuplicate, some key, some minute, none, none⟩, s)
    else if s.cycleLock then
      (⟨.skippedBusy, some key, some minute, none, some "ACTIVE_CYCLE"⟩, s)
    else
      let s := { s with lastCycleKey := some key }
      match w.runCycle with
      | none => (⟨.skippedDisabled, some key, some minute, none, some "WORKER_DISABLED"⟩, s)
      | some run =>
        match run key observedAt with
        | .error e =>
          (⟨.failed, some key, some minute, none, some (e.typeName ++ ": " ++ e.text)⟩, s)
        | .ok result => (⟨.completed, some key, some minute, some result, none⟩, s)

/-- The ticks at some instants, one after the other. -/
def ticks (s : WorkerState) : List Instant → List (Instant × WorkerTick ρ)
  | [] => []
  | observedAt :: rest =>
    let (result, s) := w.tick s observedAt
    (observedAt, result) :: ticks s rest

end ContinuousProductionWorker

namespace WorkerTick

variable {ρ : Type} (r : WorkerTick ρ)

/-- Whether the runner was called. -/
def started : Bool := r.status = .completed ∨ r.status = .failed

/-- The minute handed to the runner. -/
def handed? : Option Instant := if r.started then r.targetMinute else none

/-- The key handed to the runner. -/
def startedKey? : Option String := if r.started then r.cycleKey else none

end WorkerTick

namespace ContinuousProductionWorker

variable {ρ : Type} (w : ContinuousProductionWorker ρ)

/-- The minutes handed to the runner, each with the instant of its tick. -/
def handed (s : WorkerState) (instants : List Instant) : List (Instant × Instant) :=
  (w.ticks s instants).filterMap fun p => p.2.handed?.map (p.1, ·)

/-- The keys of the cycles that were started. -/
def startedKeys (s : WorkerState) (instants : List Instant) : List String :=
  (w.ticks s instants).filterMap fun p => p.2.startedKey?

end ContinuousProductionWorker

/-! ## Minutes -/

theorem minutes_one_pos : 0 < minutes 1 := by decide

theorem minuteFloor_le (t : ℕ) : minuteFloor t ≤ t := Nat.div_mul_le_self _ _

theorem dvd_minuteFloor (t : ℕ) : minutes 1 ∣ minuteFloor t := Nat.dvd_mul_left _ _

theorem lt_minuteFloor_add (t : ℕ) : t < minuteFloor t + minutes 1 :=
  Nat.lt_div_mul_add minutes_one_pos

theorem le_minuteFloor {m t : ℕ} (hm : minutes 1 ∣ m) (h : m ≤ t) : m ≤ minuteFloor t := by
  obtain ⟨k, rfl⟩ := hm
  rw [minuteFloor, Nat.mul_comm]
  exact Nat.mul_le_mul_right _ ((Nat.le_div_iff_mul_le minutes_one_pos).mpr (by rwa [Nat.mul_comm]))

/-- A minute is the floor of the instants that follow it within a minute. -/
theorem minuteFloor_eq {m t : ℕ} (hm : minutes 1 ∣ m) (h : m ≤ t) (ht : t < m + minutes 1) :
    minuteFloor t = m := by
  refine le_antisymm ?_ (le_minuteFloor hm h)
  obtain ⟨k, rfl⟩ := hm
  rw [minuteFloor, Nat.mul_comm]
  refine Nat.mul_le_mul_left _ (Nat.le_of_lt_succ ((Nat.div_lt_iff_lt_mul minutes_one_pos).mpr ?_))
  rwa [Nat.succ_mul, Nat.mul_comm k]

/-- The minutes of a day. -/
theorem minuteOfDay_lt (t : ℕ) : t % microsPerDay / minutes 1 < 1440 :=
  Nat.div_lt_of_lt_mul ((Nat.mod_lt _ (by decide)).trans_eq (by decide))

theorem eq_of_minuteOfDay {t t' : ℕ} (ht : minutes 1 ∣ t) (ht' : minutes 1 ∣ t')
    (hdate : t / microsPerDay = t' / microsPerDay)
    (hminute : t % microsPerDay / minutes 1 = t' % microsPerDay / minutes 1) : t = t' := by
  have hday : minutes 1 ∣ microsPerDay := by decide
  have hmod : t % microsPerDay = t' % microsPerDay := by
    rw [← Nat.div_mul_cancel ((Nat.dvd_mod_iff hday).mpr ht), hminute,
      Nat.div_mul_cancel ((Nat.dvd_mod_iff hday).mpr ht')]
  rw [← Nat.div_add_mod t microsPerDay, hdate, hmod, Nat.div_add_mod]

/-- Different minutes have different keys. -/
theorem marketMinute_inj {t t' : ℕ} (ht : minutes 1 ∣ t) (ht' : minutes 1 ∣ t')
    (hmax : t < maxInstant) (hmax' : t' < maxInstant) (h : marketMinute t = marketMinute t') :
    t = t' := by
  rw [maxInstant, Nat.mul_comm] at hmax hmax'
  obtain ⟨hyear, hmonth, hday⟩ := civil_lt (Nat.div_lt_of_lt_mul hmax)
  obtain ⟨hyear', hmonth', hday'⟩ := civil_lt (Nat.div_lt_of_lt_mul hmax')
  have hminute := minuteOfDay_lt t
  have hminute' := minuteOfDay_lt t'
  unfold marketMinute at h
  rw [String.ofList_inj] at h
  simp only [List.append_assoc, List.cons_append] at h
  obtain ⟨h₁, h⟩ := append_zeroPad_inj hyear hyear' h
  obtain ⟨h₂, h⟩ := append_zeroPad_inj hmonth hmonth' (List.tail_eq_of_cons_eq h)
  obtain ⟨h₃, h⟩ := append_zeroPad_inj hday hday' (List.tail_eq_of_cons_eq h)
  obtain ⟨h₄, h⟩ := append_zeroPad_inj (by omega) (by omega) (List.tail_eq_of_cons_eq h)
  have h₅ := zeroPad_inj (by omega) (by omega) (List.tail_eq_of_cons_eq h)
  exact eq_of_minuteOfDay ht ht' (civil_inj (Prod.ext h₁ (Prod.ext h₂ h₃))) (by omega)

/-- The key of a cycle determines its minute. -/
theorem cycleKey_inj {m m' : ℕ} (hm : minutes 1 ∣ m) (hm' : minutes 1 ∣ m')
    (hmax : m + chinaOffset < maxInstant) (hmax' : m' + chinaOffset < maxInstant)
    (h : cycleKey m = cycleKey m') : m = m' := by
  have hoffset : minutes 1 ∣ chinaOffset := by decide
  have hsame := marketMinute_inj (Nat.dvd_add hm hoffset) (Nat.dvd_add hm' hoffset) hmax hmax' h
  exact Nat.add_right_cancel hsame

end MarketMonitor
