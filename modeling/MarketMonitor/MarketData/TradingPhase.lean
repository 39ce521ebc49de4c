import Mathlib.Data.List.Pairwise
import MarketMonitor.Analysis.MetricEvidence
import MarketMonitor.MarketData.TradingClock

/-!
# The trading phase

`phase_at` answers from the row of the instant's date in UTC, the other questions of the
clock from the row of its date in the market's time zone. The answer is the one of the
market's day exactly when the two rows place the instant alike : for sessions in order and
within their day, before 16:00 UTC or when neither date is a trading day.
-/

namespace MarketMonitor

/-! ## Importing days -/

/-- `trading_calendar_day` with its sessions. -/
structure CalendarDay where
  timezone : String
  sessions : List TradingSession
  deriving DecidableEq

/-- `TradingClock.import_day(exchange, trading_date, timezone, sessions)`, and whether the
day is new. -/
def importDay (days : Date → Option CalendarDay) (exchange : String) (tradingDate : Date)
    (timezone : String) (sessions : List TradingSession) :
    Except Exn (Bool × (Date → Option CalendarDay)) :=
  if blank exchange ∨ blank timezone then
    .error (valueError "exchange and timezone are required")
  else if sessions.any fun s => blank s.phase then
    .error (valueError "session phase is required")
  else if sessions.any fun s => s.closesAt ≤ s.opensAt then
    .error (valueError "session close must follow open")
  else
    match days tradingDate with
    | some existing =>
      if existing ≠ ⟨timezone, sessions⟩ then
        .error (valueError "calendar day conflicts with existing immutable history")
      else .ok (false, days)
    | none => .ok (true, fun date =>
        if date = tradingDate then some ⟨timezone, sessions⟩ else days date)

/-- The calendars of an exchange that imports build. -/
inductive ImportedDays (exchange : String) : (Date → Option CalendarDay) → Prop
  | empty : ImportedDays exchange fun _ => none
  | day {days days' : Date → Option CalendarDay} {tradingDate : Date} {timezone : String}
      {sessions : List TradingSession} {isNew : Bool} (h : ImportedDays exchange days)
      (hday : importDay days exchange tradingDate timezone sessions = .ok (isNew, days')) :
      ImportedDays exchange days'

/-- The calendar the clock reads. -/
def calendarOf (days : Date → Option CalendarDay) : TradingCalendar :=
  fun date => (days date).map CalendarDay.sessions

/-- An imported session closes after it opens. -/
theorem ImportedDays.opens_lt {exchange : String} {days : Date → Option CalendarDay}
    (h : ImportedDays exchange days) {date : Date} {day : CalendarDay}
    (hday : days date = some day) : ∀ s ∈ day.sessions, s.opensAt < s.closesAt := by
  induction h generalizing day with
  | empty => cases hday
  | @day days days' tradingDate timezone sessions isNew _ himport ih =>
    rw [importDay] at himport
    split at himport
    · cases himport
    split at himport
    · cases himport
    split at himport
    · cases himport
    rename_i hclose
    split at himport
    · split at himport
      · cases himport
      · obtain ⟨-, rfl⟩ := Prod.mk.inj (Except.ok.inj himport)
        exact ih hday
    · obtain ⟨-, rfl⟩ := Prod.mk.inj (Except.ok.inj himport)
      dsimp only at hday
      split at hday
      · obtain rfl := Option.some.inj hday
        intro s hs
        by_contra hlt
        exact hclose (List.any_eq_true.mpr ⟨s, hs, decide_eq_true (not_lt.mp hlt)⟩)
      · exact ih hday

/-! ## The answer of a day -/

/-- What `phase_at` finds in a row of the calendar. -/
inductive PhaseAnswer where
  | coverageMissing | nonTradingDay | session (phase : String) | preOpen | closed | inBreak
  deriving DecidableEq, Repr

/-- The text of an answer. -/
def PhaseAnswer.text : PhaseAnswer → String
  | .coverageMissing => "CALENDAR_COVERAGE_MISSING"
  | .nonTradingDay => "NON_TRADING_DAY"
  | .session phase => phase
  | .preOpen => "PRE_OPEN"
  | .closed => "CLOSED"
  | .inBreak => "BREAK"

/-- The branches of `phase_at`, by the row it reads. -/
def rowAnswer (row : Option (List TradingSession)) (instant : Instant) : PhaseAnswer :=
  match row with
  | none => .coverageMissing
  | some [] => .nonTradingDay
  | some (first :: rest) =>
    match (first :: rest).find? fun s => s.covers instant with
    | some s => .session s.phase
    | none =>
      if instant < first.opensAt then .preOpen
      else if ((first :: rest).getLast (List.cons_ne_nil _ _)).closesAt ≤ instant then .closed
      else .inBreak

/-- The phase is the text of what the row answers. -/
theorem phaseAt_eq_text (calendar : TradingCalendar) (instant : Instant) :
    calendar.phaseAt instant = (rowAnswer (calendar (utcDate instant)) instant).text := by
  rw [TradingCalendar.phaseAt]
  generalize calendar (utcDate instant) = row
  rcases row with - | - | ⟨first, rest⟩
  · rfl
  · rfl
  · dsimp only [rowAnswer]
    cases (first :: rest).find? fun s => s.covers instant with
    | some s => rfl
    | none =>
      dsimp only
      split
      · rfl
      · split <;> rfl

/-- What an instant is on the day of a row, by the clock. -/
def StandsAt (row : Option (List TradingSession)) (instant : Instant) : PhaseAnswer → Prop
  | .coverageMissing => row = none
  | .nonTradingDay => row = some []
  | .session phase => ∃ s ∈ row.getD [], s.covers instant ∧ s.phase = phase
  | .preOpen => row.getD [] ≠ [] ∧ ∀ s ∈ row.getD [], instant < s.opensAt
  | .closed => row.getD [] ≠ [] ∧ ∀ s ∈ row.getD [], s.closesAt ≤ instant
  | .inBreak => row.getD [] ≠ [] ∧ (∀ s ∈ row.getD [], ¬s.covers instant) ∧
      (∃ s ∈ row.getD [], s.opensAt ≤ instant) ∧ ∃ s ∈ row.getD [], instant < s.closesAt

/-- The phase is decided by the row of the market's date : the answer is the one that
stands there, and in a continuous session it is the one `continuous_session_at` finds. -/
structure FollowsMarketDay (calendar : TradingCalendar) (instant : Instant) : Prop where
  text : calendar.phaseAt instant = (rowAnswer (calendar (utcDate instant)) instant).text
  decided : ∀ answer, rowAnswer (calendar (utcDate instant)) instant = answer ↔
    StandsAt (calendar (chinaDate instant)) instant answer
  continuous : ∀ phase ∈ continuousSessionPhases,
    rowAnswer (calendar (utcDate instant)) instant = .session phase ↔
      ∃ s, calendar.continuousSessionAt instant = some s ∧ s.phase = phase

/-- Two rows place an instant alike : both are missing, both are no trading day, or it is
before, in, between or after the sessions of both. -/
structure AlikeAt (utc china : Option (List TradingSession)) (instant : Instant) : Prop where
  imported : utc = none ↔ china = none
  trading : utc = some [] ↔ china = some []
  covered : (∃ s ∈ utc.getD [], s.covers instant) ↔ ∃ s ∈ china.getD [], s.covers instant
  phases : ∀ s, (utc.getD []).find? (fun s => s.covers instant) = some s →
    ∀ u ∈ china.getD [], u.covers instant → u.phase = s.phase
  before : (∀ s ∈ utc.getD [], ¬s.covers instant) →
    ((∀ s ∈ (utc.getD []).head?, instant < s.opensAt) ↔ ∀ s ∈ china.getD [], instant < s.opensAt)
  after : (∀ s ∈ utc.getD [], ¬s.covers instant) →
    ¬(∀ s ∈ (utc.getD []).head?, instant < s.opensAt) →
    ((∀ s ∈ (utc.getD []).getLast?, s.closesAt ≤ instant) ↔
      ∀ s ∈ china.getD [], s.closesAt ≤ instant)

/-! ## The branches -/

section Row

variable {row : Option (List TradingSession)} {instant : Instant}

theorem getD_eq_nil_iff : row.getD [] = [] ↔ row = none ∨ row = some [] := by
  rcases row with - | sessions
  · simp
  · simp

theorem rowAnswer_of_covered {s : TradingSession}
    (hs : (row.getD []).find? (fun s => s.covers instant) = some s) :
    rowAnswer row instant = .session s.phase := by
  rcases row with - | - | ⟨first, rest⟩
  · cases hs
  · cases hs
  · rw [Option.getD_some] at hs
    rw [rowAnswer, hs]

/-- The answer of a trading day without a session in force. -/
theorem rowAnswer_of_uncovered (hrow : row.getD [] ≠ [])
    (huncovered : ∀ s ∈ row.getD [], ¬s.covers instant) :
    rowAnswer row instant =
      if ∀ s ∈ (row.getD []).head?, instant < s.opensAt then .preOpen
      else if ∀ s ∈ (row.getD []).getLast?, s.closesAt ≤ instant then .closed else .inBreak := by
  rcases row with - | - | ⟨first, rest⟩
  · exact absurd rfl hrow
  · exact absurd rfl hrow
  · rw [Option.getD_some] at *
    have hnone : ((first :: rest).find? fun s => s.covers instant) = none :=
      List.find?_eq_none.mpr huncovered
    rw [rowAnswer, hnone]
    simp only [List.head?_cons, Option.mem_some_iff, forall_eq',
      List.getLast?_eq_some_getLast (List.cons_ne_nil first rest)]

/-- The first session in force, if there is one. -/
theorem find_covers_or (sessions : List TradingSession) (instant : Instant) :
    (∃ s ∈ sessions, sessions.find? (fun s => s.covers instant) = some s ∧ s.covers instant) ∨
      ∀ s ∈ sessions, ¬s.covers instant := by
  cases hfind : sessions.find? fun s => s.covers instant with
  | none => exact .inr (List.find?_eq_none.mp hfind)
  | some s => exact .inl ⟨s, List.mem_of_find?_eq_some hfind, rfl, by
      simpa using List.find?_some hfind⟩

theorem rowAnswer_eq_missing_iff : rowAnswer row instant = .coverageMissing ↔ row = none := by
  rcases row with - | - | ⟨first, rest⟩
  · simp [rowAnswer]
  · simp [rowAnswer]
  · simp only [rowAnswer, reduceCtorEq, iff_false]
    split
    · exact fun h => nomatch h
    · split
      · exact fun h => nomatch h
      · split <;> exact fun h => nomatch h

/-- A day without sessions is no trading day. -/
theorem rowAnswer_eq_nonTrading_iff :
    rowAnswer row instant = .nonTradingDay ↔ row = some [] := by
  rcases row with - | - | ⟨first, rest⟩
  · simp [rowAnswer]
  · simp [rowAnswer]
  · simp only [rowAnswer, Option.some.injEq, reduceCtorEq, iff_false]
    split
    · exact fun h => nomatch h
    · split
      · exact fun h => nomatch h
      · split <;> exact fun h => nomatch h

/-- At most one answer stands, when the sessions in force agree. -/
theorem StandsAt.unique {answer answer' : PhaseAnswer}
    (hopens : ∀ s ∈ row.getD [], s.opensAt < s.closesAt)
    (hagree : ∀ s ∈ row.getD [], ∀ u ∈ row.getD [], s.covers instant → u.covers instant →
      s.phase = u.phase)
    (h : StandsAt row instant answer) (h' : StandsAt row instant answer') : answer = answer' := by
  have hcovers {s : TradingSession} (hs : s.covers instant) :
      s.opensAt ≤ instant ∧ instant < s.closesAt := by
    simpa [TradingSession.covers] using hs
  have hsides (hrow : row.getD [] ≠ []) (hbefore : ∀ s ∈ row.getD [], instant < s.opensAt) :
      ¬∀ s ∈ row.getD [], s.closesAt ≤ instant := fun hafter => by
    obtain ⟨s, hs⟩ := List.exists_mem_of_ne_nil _ hrow
    have := hopens s hs
    have := hbefore s hs
    have := hafter s hs
    lia
  cases answer <;> cases answer' <;> simp only [StandsAt] at h h' <;> grind

end Row

/-! ## Alike rows -/

section Alike

variable {utc china : Option (List TradingSession)} {instant : Instant}

/-- Between alike rows the answer of one stands in the other. -/
theorem AlikeAt.stands (h : AlikeAt utc china instant) :
    StandsAt china instant (rowAnswer utc instant) := by
  by_cases hnone : utc = none
  · rw [rowAnswer_eq_missing_iff.mpr hnone]
    exact h.imported.mp hnone
  by_cases hempty : utc = some []
  · rw [rowAnswer_eq_nonTrading_iff.mpr hempty]
    exact h.trading.mp hempty
  have hutc : utc.getD [] ≠ [] := fun hnil => (getD_eq_nil_iff.mp hnil).elim hnone hempty
  have hchina : china.getD [] ≠ [] := fun hnil =>
    (getD_eq_nil_iff.mp hnil).elim (hnone ∘ h.imported.mpr) (hempty ∘ h.trading.mpr)
  rcases find_covers_or (utc.getD []) instant with ⟨s, hs, hfind, hcovers⟩ | huncovered
  · rw [rowAnswer_of_covered hfind]
    obtain ⟨u, hu, hucovers⟩ := h.covered.mp ⟨s, hs, hcovers⟩
    exact ⟨u, hu, hucovers, h.phases s hfind u hu hucovers⟩
  · have huncovered' : ∀ u ∈ china.getD [], ¬u.covers instant := fun u hu hcovers => by
      obtain ⟨s, hs, hscovers⟩ := h.covered.mpr ⟨u, hu, hcovers⟩
      exact huncovered s hs hscovers
    rw [rowAnswer_of_uncovered hutc huncovered]
    split
    case isTrue hbefore => exact ⟨hchina, (h.before huncovered).mp hbefore⟩
    case isFalse hbefore =>
      split
      case isTrue hafter => exact ⟨hchina, (h.after huncovered hbefore).mp hafter⟩
      case isFalse hafter =>
        rw [h.before huncovered] at hbefore
        rw [h.after huncovered (mt (h.before huncovered).mp hbefore)] at hafter
        simp only [not_forall, not_lt, not_le] at hbefore hafter
        obtain ⟨s, hs, hopen⟩ := hbefore
        obtain ⟨u, hu, hclose⟩ := hafter
        exact ⟨hchina, huncovered', ⟨s, hs, hopen⟩, u, hu, hclose⟩

theorem AlikeAt.agree (h : AlikeAt utc china instant) :
    ∀ s ∈ china.getD [], ∀ u ∈ china.getD [], s.covers instant → u.covers instant →
      s.phase = u.phase := by
  intro s hs u hu hscovers hucovers
  rcases find_covers_or (utc.getD []) instant with ⟨v, hv, hfind, -⟩ | huncovered
  · rw [h.phases v hfind s hs hscovers, h.phases v hfind u hu hucovers]
  · obtain ⟨v, hv, hvcovers⟩ := h.covered.mpr ⟨s, hs, hscovers⟩
    exact absurd hvcovers (huncovered v hv)

/-- Rows are alike at an instant exactly when the answer of one is what stands in the other. -/
theorem alikeAt_iff (hopens : ∀ s ∈ china.getD [], s.opensAt < s.closesAt) :
    AlikeAt utc china instant ↔
      ∀ answer, rowAnswer utc instant = answer ↔ StandsAt china instant answer := by
  constructor
  · intro h answer
    refine ⟨fun heq => heq ▸ h.stands, fun hstands => ?_⟩
    exact StandsAt.unique hopens h.agree h.stands hstands
  · intro h
    have hstands := (h _).mp rfl
    have hcoverage : utc = none ↔ china = none :=
      rowAnswer_eq_missing_iff.symm.trans (h .coverageMissing)
    have htrading : utc = some [] ↔ china = some [] :=
      rowAnswer_eq_nonTrading_iff.symm.trans (h .nonTradingDay)
    have hnil : utc.getD [] = [] ↔ china.getD [] = [] := by
      rw [getD_eq_nil_iff, getD_eq_nil_iff, hcoverage, htrading]
    have hfound {s : TradingSession}
        (hs : (utc.getD []).find? (fun s => s.covers instant) = some s) {u : TradingSession}
        (hu : u ∈ china.getD []) (hcovers : u.covers instant) : u.phase = s.phase := by
      have hanswer := (h (.session u.phase)).mpr ⟨u, hu, hcovers, rfl⟩
      rw [rowAnswer_of_covered hs] at hanswer
      exact (PhaseAnswer.session.inj hanswer).symm
    refine ⟨hcoverage, htrading, ⟨?_, ?_⟩, fun s hs u hu => hfound hs hu, ?_, ?_⟩
    · rintro ⟨s, hs, hcovers⟩
      rcases find_covers_or (utc.getD []) instant with ⟨v, -, hfind, -⟩ | huncovered
      · rw [rowAnswer_of_covered hfind] at hstands
        obtain ⟨u, hu, hucovers, -⟩ := hstands
        exact ⟨u, hu, hucovers⟩
      · exact absurd hcovers (huncovered s hs)
    · rintro ⟨u, hu, hcovers⟩
      rcases find_covers_or (utc.getD []) instant with ⟨v, hv, -, hvcovers⟩ | huncovered
      · exact ⟨v, hv, hvcovers⟩
      · have hanswer := (h (.session u.phase)).mpr ⟨u, hu, hcovers, rfl⟩
        rw [rowAnswer_of_uncovered (mt hnil.mp (List.ne_nil_of_mem hu)) huncovered] at hanswer
        split at hanswer
        · cases hanswer
        · split at hanswer <;> cases hanswer
    · intro huncovered
      by_cases hempty : utc.getD [] = []
      · simp [hempty, hnil.mp hempty]
      have hanswer := rowAnswer_of_uncovered hempty huncovered
      constructor
      · intro hbefore
        rw [if_pos hbefore] at hanswer
        exact ((h .preOpen).mp hanswer).2
      · intro hbefore
        have hpre := (h .preOpen).mpr ⟨mt hnil.mpr hempty, hbefore⟩
        by_contra hlate
        rw [if_neg hlate, hpre] at hanswer
        split at hanswer <;> cases hanswer
    · intro huncovered hlate
      by_cases hempty : utc.getD [] = []
      · simp [hempty, hnil.mp hempty]
      have hanswer := rowAnswer_of_uncovered hempty huncovered
      rw [if_neg hlate] at hanswer
      constructor
      · intro hafter
        rw [if_pos hafter] at hanswer
        exact ((h .closed).mp hanswer).2
      · intro hafter
        have hclosed := (h .closed).mpr ⟨mt hnil.mpr hempty, hafter⟩
        by_contra hopen
        rw [if_neg hopen, hclosed] at hanswer
        cases hanswer

end Alike

/-! ## The market's day -/

/-- What decides the answer decides it for the continuous phases too. -/
theorem continuousSessionAt_of_decided {calendar : TradingCalendar} {instant : Instant}
    (h : ∀ answer, rowAnswer (calendar (utcDate instant)) instant = answer ↔
      StandsAt (calendar (chinaDate instant)) instant answer)
    {phase : String} (hphase : phase ∈ continuousSessionPhases) :
    rowAnswer (calendar (utcDate instant)) instant = .session phase ↔
      ∃ s, calendar.continuousSessionAt instant = some s ∧ s.phase = phase := by
  have hfound {s : TradingSession} (hs : calendar.continuousSessionAt instant = some s) :
      rowAnswer (calendar (utcDate instant)) instant = .session s.phase := by
    have hmem := (List.mem_filter.mp (List.mem_of_find?_eq_some hs)).1
    exact (h _).mpr ⟨s, hmem, by simpa using List.find?_some hs, rfl⟩
  constructor
  · intro hanswer
    obtain ⟨u, hu, hcovers, rfl⟩ := (h _).mp hanswer
    have hsome : (calendar.continuousSessionAt instant).isSome := by
      rw [TradingCalendar.continuousSessionAt, List.find?_isSome]
      exact ⟨u, List.mem_filter.mpr ⟨hu, by simpa using hphase⟩, hcovers⟩
    obtain ⟨s, hs⟩ := Option.isSome_iff_exists.mp hsome
    have hsame := (hfound hs).symm.trans hanswer
    exact ⟨s, hs, PhaseAnswer.session.inj hsame⟩
  · rintro ⟨s, hs, rfl⟩
    exact hfound hs

/-- The sessions of every day are in order, and lie between midnight and 16:00 UTC of their
date, which is the part of it that has the same date in the market's time zone. -/
def SessionsInDay (calendar : TradingCalendar) : Prop :=
  ∀ date sessions, calendar date = some sessions →
    sessions.Pairwise (fun s t => s.closesAt ≤ t.opensAt) ∧
    ∀ s ∈ sessions, date * microsPerDay ≤ s.opensAt ∧
      s.closesAt ≤ date * microsPerDay + 16 * 60 * minutes 1

/-- The instants before 16:00 UTC have one date in both time zones. -/
theorem chinaDate_of_early {instant : Instant}
    (h : instant % microsPerDay < 16 * 60 * minutes 1) : chinaDate instant = utcDate instant := by
  simp only [chinaDate, utcDate, chinaOffset, microsPerDay, minutes, microsPerSecond] at *
  lia

theorem chinaDate_of_late {instant : Instant}
    (h : ¬instant % microsPerDay < 16 * 60 * minutes 1) :
    chinaDate instant = utcDate instant + 1 := by
  simp only [chinaDate, utcDate, chinaOffset, microsPerDay, minutes, microsPerSecond] at *
  lia

/-- A row with its sessions in order is alike itself. -/
theorem alikeAt_self {row : Option (List TradingSession)} {instant : Instant}
    (hsorted : (row.getD []).Pairwise fun s t => s.closesAt ≤ t.opensAt)
    (hopens : ∀ s ∈ row.getD [], s.opensAt < s.closesAt) : AlikeAt row row instant := by
  generalize hsessions : row.getD [] = sessions at *
  have hcovers {s : TradingSession} (hs : s.covers instant) :
      s.opensAt ≤ instant ∧ instant < s.closesAt := by
    simpa [TradingSession.covers] using hs
  have hdisjoint : sessions.Pairwise fun s t => ¬(s.covers instant ∧ t.covers instant) :=
    hsorted.imp fun {s t} hle hboth => by
      have := hcovers hboth.1
      have := hcovers hboth.2
      lia
  refine ⟨Iff.rfl, Iff.rfl, Iff.rfl, ?_, ?_, ?_⟩
  · rw [hsessions]
    intro s hs u hu hucovers
    have hmem := List.mem_of_find?_eq_some hs
    have hscovers : s.covers instant := by simpa using List.find?_some hs
    have hsymm : Std.Symm fun s t : TradingSession => ¬(s.covers instant ∧ t.covers instant) :=
      ⟨fun _ _ h hboth => h hboth.symm⟩
    by_contra hne
    exact hdisjoint.forall hu hmem (fun heq => hne (heq ▸ rfl)) ⟨hucovers, hscovers⟩
  · rw [hsessions]
    intro _
    cases sessions with
    | nil => simp
    | cons first rest =>
      have hfirst := hopens first List.mem_cons_self
      refine ⟨fun h u hu => ?_, fun h s hs => h s (List.mem_of_head? hs)⟩
      have hbefore := h first rfl
      rcases List.mem_cons.mp hu with rfl | hu
      · exact hbefore
      · have := (List.pairwise_cons.mp hsorted).1 u hu
        lia
  · rw [hsessions]
    intro _ _
    rcases sessions.eq_nil_or_concat with rfl | ⟨init, last, rfl⟩
    · simp
    · rw [List.concat_eq_append] at *
      have hlast := hopens last (by simp)
      refine ⟨fun h u hu => ?_, fun h s hs => h s (List.mem_of_getLast? hs)⟩
      have hafter := h last (by simp)
      rcases List.mem_append.mp hu with hu | hu
      · have := (List.pairwise_append.mp hsorted).2.2 u hu last List.mem_cons_self
        lia
      · rwa [List.mem_singleton.mp hu]

/-- With the sessions in their days the phase follows the market's day before 16:00 UTC, and
later only where neither date is a trading day. -/
theorem alikeAt_iff_early {calendar : TradingCalendar} (hdays : SessionsInDay calendar)
    (hopens : ∀ date, ∀ s ∈ (calendar date).getD [], s.opensAt < s.closesAt) (instant : Instant) :
    AlikeAt (calendar (utcDate instant)) (calendar (chinaDate instant)) instant ↔
      instant % microsPerDay < 16 * 60 * minutes 1 ∨
      (calendar (utcDate instant) = none ∧ calendar (chinaDate instant) = none) ∨
      (calendar (utcDate instant) = some [] ∧ calendar (chinaDate instant) = some []) := by
  have hinDay (date : Date) {s : TradingSession} (hs : s ∈ (calendar date).getD []) :
      date * microsPerDay ≤ s.opensAt ∧ s.closesAt ≤ date * microsPerDay + 16 * 60 * minutes 1 := by
    cases hrow : calendar date with
    | none => simp [hrow] at hs
    | some sessions =>
      rw [hrow] at hs
      exact (hdays date sessions hrow).2 s hs
  constructor
  · intro h
    by_contra hno
    simp only [not_or, not_and] at hno
    obtain ⟨hlate, hmissing, hclosed⟩ := hno
    have hdate := chinaDate_of_late hlate
    have hutc : (calendar (utcDate instant)).getD [] ≠ [] := by
      rw [ne_eq, getD_eq_nil_iff]
      rintro (hnone | hempty)
      · exact hmissing hnone (h.imported.mp hnone)
      · exact hclosed hempty (h.trading.mp hempty)
    -- The sessions of the earlier date are over, those of the later one are still to come.
    have hday := Nat.div_add_mod' instant microsPerDay
    have hnext := Nat.lt_div_mul_add (a := instant) (b := microsPerDay) (by decide)
    have hpast (s) (hs : s ∈ (calendar (utcDate instant)).getD []) : s.closesAt ≤ instant := by
      have hclose := (hinDay _ hs).2
      calc s.closesAt ≤ instant / microsPerDay * microsPerDay + 16 * 60 * minutes 1 := hclose
        _ ≤ instant / microsPerDay * microsPerDay + instant % microsPerDay :=
          Nat.add_le_add_left (not_lt.mp hlate) _
        _ = instant := hday
    have hcoming (s) (hs : s ∈ (calendar (chinaDate instant)).getD []) : instant < s.opensAt := by
      have hopen := (hinDay _ hs).1
      rw [hdate, utcDate, Nat.add_mul, Nat.one_mul] at hopen
      exact hnext.trans_le hopen
    have huncovered (s) (hs : s ∈ (calendar (utcDate instant)).getD []) :
        ¬s.covers instant := by
      simp only [TradingSession.covers, decide_eq_true_eq, not_and, not_lt]
      exact fun _ => hpast s hs
    obtain ⟨first, hfirst⟩ : ∃ first, ((calendar (utcDate instant)).getD []).head? = some first :=
      Option.ne_none_iff_exists'.mp (by rwa [ne_eq, List.head?_eq_none_iff])
    have hmem := List.mem_of_head? hfirst
    have hearly := (h.before huncovered).mpr hcoming first hfirst
    exact absurd (hearly.trans (hopens _ first hmem)) (not_lt.mpr (hpast first hmem))
  · rintro (hearly | ⟨hutc, hchina⟩ | ⟨hutc, hchina⟩)
    · rw [chinaDate_of_early hearly]
      refine alikeAt_self ?_ (hopens _)
      cases hrow : calendar (utcDate instant) with
      | none => exact List.Pairwise.nil
      | some sessions => exact (hdays _ sessions hrow).1
    · rw [hutc, hchina]
      exact alikeAt_self List.Pairwise.nil (by simp)
    · rw [hutc, hchina]
      exact alikeAt_self List.Pairwise.nil (by simp)

/-- The phase follows the market's day exactly where the row of the date in UTC places the
instant as the row of the market's date does : for sessions within their days, before 16:00
UTC and where neither date is a trading day. -/
theorem phaseAt_follows_market_day_iff {exchange : String} {days : Date → Option CalendarDay}
    (hdays : ImportedDays exchange days) (instant : Instant) :
    (FollowsMarketDay (calendarOf days) instant ↔
      AlikeAt (calendarOf days (utcDate instant)) (calendarOf days (chinaDate instant)) instant) ∧
    (SessionsInDay (calendarOf days) → (FollowsMarketDay (calendarOf days) instant ↔
      instant % microsPerDay < 16 * 60 * minutes 1 ∨
      (calendarOf days (utcDate instant) = none ∧ calendarOf days (chinaDate instant) = none) ∨
      (calendarOf days (utcDate instant) = some [] ∧
        calendarOf days (chinaDate instant) = some []))) := by
  have hopens (date : Date) : ∀ s ∈ (calendarOf days date).getD [], s.opensAt < s.closesAt := by
    intro s hs
    cases hday : days date with
    | none => simp [calendarOf, hday] at hs
    | some day =>
      rw [calendarOf, hday] at hs
      exact hdays.opens_lt hday s hs
  have hiff : FollowsMarketDay (calendarOf days) instant ↔
      AlikeAt (calendarOf days (utcDate instant)) (calendarOf days (chinaDate instant))
        instant := by
    rw [alikeAt_iff (hopens _)]
    exact ⟨FollowsMarketDay.decided, fun h =>
      ⟨phaseAt_eq_text _ _, h, fun phase hphase => continuousSessionAt_of_decided h hphase⟩⟩
  exact ⟨hiff, fun hinDay => hiff.trans (alikeAt_iff_early hinDay hopens instant)⟩

/-- Monday 2025-01-06 with its sessions, and the Sunday before it. -/
def sampleMonday : List TradingSession :=
  [⟨"CONTINUOUS_AM", minutes (739256 * 1440 + 90), minutes (739256 * 1440 + 210)⟩,
    ⟨"CONTINUOUS_PM", minutes (739256 * 1440 + 300), minutes (739256 * 1440 + 420)⟩]

def sampleDays : Date → Option CalendarDay := fun date =>
  if date = 739256 then some ⟨"Asia/Shanghai", sampleMonday⟩
  else if date = 739255 then some ⟨"Asia/Shanghai", []⟩
  else none

theorem sampleDays_imported : ImportedDays "SSE" sampleDays := by
  have hsunday : ImportedDays "SSE" fun date =>
      if date = 739255 then some ⟨"Asia/Shanghai", []⟩ else none :=
    ImportedDays.day ImportedDays.empty
      (show importDay (fun _ => none) "SSE" 739255 "Asia/Shanghai" [] = .ok (true, _) from rfl)
  exact ImportedDays.day hsunday
    (show importDay _ "SSE" 739256 "Asia/Shanghai" sampleMonday = .ok (true, sampleDays) from rfl)

/-- At ten on Monday the phase is the one of Monday. -/
theorem phaseAt_in_session : FollowsMarketDay (calendarOf sampleDays)
    (minutes (739256 * 1440 + 120)) :=
  (phaseAt_follows_market_day_iff sampleDays_imported _).1.mpr
    (alikeAt_self (by decide) (by decide))

/-- At seven on Monday, which is Sunday in UTC, the phase is the one of Sunday. -/
theorem phaseAt_before_the_open :
    ImportedDays "SSE" sampleDays ∧
    (calendarOf sampleDays).phaseAt (minutes (739255 * 1440 + 1380)) = "NON_TRADING_DAY" ∧
    StandsAt (calendarOf sampleDays (chinaDate (minutes (739255 * 1440 + 1380))))
      (minutes (739255 * 1440 + 1380)) .preOpen ∧
    ¬FollowsMarketDay (calendarOf sampleDays) (minutes (739255 * 1440 + 1380)) := by
  have hpre : StandsAt (calendarOf sampleDays (chinaDate (minutes (739255 * 1440 + 1380))))
      (minutes (739255 * 1440 + 1380)) .preOpen := ⟨by decide, by decide⟩
  exact ⟨sampleDays_imported, by decide, hpre, fun h =>
    absurd ((h.decided .preOpen).mpr hpre) (by decide)⟩

end MarketMonitor
