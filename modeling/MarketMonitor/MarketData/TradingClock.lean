import MarketMonitor.Persistence.Values

/-!
# The trading clock

The imported calendar of an exchange and the questions asked of it : which phase an instant
is in, which minutes of the continuous sessions are complete, and what full time a server
time of day stands for.
-/

namespace MarketMonitor

/-- Eight hours, the offset of the market's time zone. -/
def chinaOffset : ℕ := 8 * 3600 * microsPerSecond

/-- `instant.date()`, the date in UTC. -/
def utcDate (instant : Instant) : Date := instant / microsPerDay

/-- `instant.astimezone(_CHINA).date()`. -/
def chinaDate (instant : Instant) : Date := (instant + chinaOffset) / microsPerDay

/-- `instant.replace(second=0, microsecond=0)`. -/
def minuteFloor (instant : Instant) : Instant := instant / minutes 1 * minutes 1

/-- `trading_session` -/
structure TradingSession where
  phase : String
  opensAt : Instant
  closesAt : Instant
  deriving DecidableEq, Repr

/-- The imported days of an exchange, each with its sessions in their sequence. A day
without a session is not a trading day. -/
abbrev TradingCalendar := Date → Option (List TradingSession)

def continuousSessionPhases : List String := ["CONTINUOUS_AM", "CONTINUOUS_PM"]

/-- Whether a session is in force at an instant. -/
def TradingSession.covers (s : TradingSession) (instant : Instant) : Bool :=
  s.opensAt ≤ instant ∧ instant < s.closesAt

/-- `TradingClock.phase_at(exchange, instant)`. -/
def TradingCalendar.phaseAt (calendar : TradingCalendar) (instant : Instant) : String :=
  match calendar (utcDate instant) with
  | none => "CALENDAR_COVERAGE_MISSING"
  | some [] => "NON_TRADING_DAY"
  | some (first :: rest) =>
    match (first :: rest).find? fun s => s.covers instant with
    | some s => s.phase
    | none =>
      if instant < first.opensAt then "PRE_OPEN"
      else if ((first :: rest).getLast (List.cons_ne_nil _ _)).closesAt ≤ instant then "CLOSED"
      else "BREAK"

/-- `_continuous_sessions(exchange, trading_date)`. -/
def TradingCalendar.continuousSessions (calendar : TradingCalendar) (date : Date) :
    List TradingSession :=
  ((calendar date).getD []).filter fun s => s.phase ∈ continuousSessionPhases

/-- `TradingClock.final_continuous_close(exchange, instant)`. -/
def TradingCalendar.finalContinuousClose (calendar : TradingCalendar) (instant : Instant) :
    Option Instant :=
  (calendar.continuousSessions (chinaDate instant)).getLast?.map TradingSession.closesAt

/-- `TradingClock.continuous_session_at(exchange, instant)`. -/
def TradingCalendar.continuousSessionAt (calendar : TradingCalendar) (instant : Instant) :
    Option TradingSession :=
  (calendar.continuousSessions (chinaDate instant)).find? fun s => s.covers instant

/-- `TradingClock.latest_completed_continuous_minute(exchange, instant)`. -/
def TradingCalendar.latestCompletedContinuousMinute (calendar : TradingCalendar)
    (instant : Instant) : Option Instant := do
  let session ← calendar.continuousSessionAt instant
  let minuteEnd := minuteFloor instant
  if minuteEnd ≤ session.opensAt ∨ session.closesAt < minuteEnd then none else some minuteEnd

/-- The loop of `latest_completed_legal_minute` over the sessions of the day. -/
def latestLegalMinute (instant : Instant) : List TradingSession → Option Instant → Option Instant
  | [], candidate => candidate
  | s :: sessions, candidate =>
    let completedUntil := min instant s.closesAt
    if completedUntil ≤ s.opensAt then latestLegalMinute instant sessions candidate
    else
      let minuteEnd := minuteFloor completedUntil
      let candidate :=
        if s.opensAt < minuteEnd ∧ minuteEnd ≤ s.closesAt then some minuteEnd else candidate
      if instant < s.closesAt then candidate else latestLegalMinute instant sessions candidate

/-- `TradingClock.latest_completed_legal_minute(exchange, instant)`. -/
def TradingCalendar.latestCompletedLegalMinute (calendar : TradingCalendar)
    (instant : Instant) : Option Instant :=
  latestLegalMinute instant (calendar.continuousSessions (chinaDate instant)) none

/-- The hours, minutes, seconds and hundredths of a server time. -/
def serverClock (serverTimeRaw : ℕ) : ℕ × ℕ × ℕ × ℕ :=
  if 235959 < serverTimeRaw then
    (serverTimeRaw / 1000000, serverTimeRaw % 1000000 / 10000, serverTimeRaw % 10000 / 100,
      serverTimeRaw % 100)
  else (serverTimeRaw / 10000, serverTimeRaw % 10000 / 100, serverTimeRaw % 100, 0)

/-- `TradingClock.tdx_quote_time(exchange, received_at, server_time_raw)`. -/
def TradingCalendar.tdxQuoteTime (calendar : TradingCalendar) (receivedAt : Instant)
    (serverTimeRaw : ℤ) : Option Instant :=
  if serverTimeRaw < 0 then none
  else
    let (hours, minute, seconds, hundredths) := serverClock serverTimeRaw.toNat
    if hours ≤ 23 ∧ minute ≤ 59 ∧ seconds ≤ 59 then
      let instant := chinaDate receivedAt * microsPerDay +
        ((hours * 60 + minute) * 60 + seconds) * microsPerSecond + hundredths * 10000 - chinaOffset
      if calendar.phaseAt instant ∈ continuousSessionPhases then some instant else none
    else none

end MarketMonitor
