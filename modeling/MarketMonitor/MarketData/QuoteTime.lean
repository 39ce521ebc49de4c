import MarketMonitor.MarketData.LegalMinutes
import MarketMonitor.MarketData.TradingPhase
import MarketMonitor.Persistence.Instants

/-!
# Source times of quotes

A quote carries its time of day in one integer, as HHMMSS or, with hundredths of a second,
as HHMMSScc. When the continuous sessions of a calendar lie after eight in the morning the
size of the integer tells the two apart : every time of a session is recovered from either,
and no other integer stands for one (`tdx_quote_time_decodes`). A session of another phase
hides a continuous one that it overlaps when it comes before it in the sequence.
-/

namespace MarketMonitor

/-! ## Times of day -/

/-- A local time of day with a resolution of a hundredth of a second. -/
structure TimeOfDay where
  hours : ℕ
  minute : ℕ
  seconds : ℕ
  hundredths : ℕ
  hours_le : hours ≤ 23
  minute_le : minute ≤ 59
  seconds_le : seconds ≤ 59
  hundredths_le : hundredths ≤ 99

namespace TimeOfDay

/-- Microseconds since midnight. -/
def micros (t : TimeOfDay) : ℕ :=
  ((t.hours * 60 + t.minute) * 60 + t.seconds) * microsPerSecond + t.hundredths * 10000

/-- The instant of a time on a date of the market. -/
def on (t : TimeOfDay) (date : Date) : Instant := date * microsPerDay + t.micros - chinaOffset

/-- HHMMSS -/
def secondsCode (t : TimeOfDay) : ℕ := t.hours * 10000 + t.minute * 100 + t.seconds

/-- HHMMSScc -/
def hundredthsCode (t : TimeOfDay) : ℕ :=
  t.hours * 1000000 + t.minute * 10000 + t.seconds * 100 + t.hundredths

/-- The integers that stand for a time. -/
def Encodes (t : TimeOfDay) (serverTimeRaw : ℤ) : Prop :=
  serverTimeRaw = t.hundredthsCode ∨ (t.hundredths = 0 ∧ serverTimeRaw = t.secondsCode)

theorem micros_lt (t : TimeOfDay) : t.micros < microsPerDay := by
  have := t.hours_le
  have := t.minute_le
  have := t.seconds_le
  have := t.hundredths_le
  simp only [micros, microsPerDay, microsPerSecond]
  omega

theorem offset_le_micros (t : TimeOfDay) : chinaOffset ≤ t.micros ↔ 8 ≤ t.hours := by
  have := t.minute_le
  have := t.seconds_le
  have := t.hundredths_le
  simp only [micros, chinaOffset, microsPerSecond]
  omega

/-- The clock of a time in seconds. -/
theorem serverClock_secondsCode (t : TimeOfDay) :
    serverClock t.secondsCode = (t.hours, t.minute, t.seconds, 0) := by
  have := t.hours_le
  have := t.minute_le
  have := t.seconds_le
  have hsmall : ¬235959 < t.secondsCode := by
    unfold secondsCode
    omega
  rw [serverClock, if_neg hsmall]
  unfold secondsCode
  refine Prod.ext ?_ (Prod.ext ?_ (Prod.ext ?_ rfl)) <;> dsimp only <;> omega

/-- The clock of a time in hundredths, from eight on. -/
theorem serverClock_hundredthsCode (t : TimeOfDay) (hmorning : 8 ≤ t.hours) :
    serverClock t.hundredthsCode = (t.hours, t.minute, t.seconds, t.hundredths) := by
  have := t.minute_le
  have := t.seconds_le
  have := t.hundredths_le
  have hlarge : 235959 < t.hundredthsCode := by
    unfold hundredthsCode
    omega
  rw [serverClock, if_pos hlarge]
  unfold hundredthsCode
  refine Prod.ext ?_ (Prod.ext ?_ (Prod.ext ?_ ?_)) <;> dsimp only <;> omega

end TimeOfDay

/-- An integer whose fields are those of a time of day stands for it. -/
theorem exists_encodes {raw : ℕ} {hours minute seconds hundredths : ℕ}
    (h : serverClock raw = (hours, minute, seconds, hundredths)) (hhours : hours ≤ 23)
    (hminute : minute ≤ 59) (hseconds : seconds ≤ 59) :
    ∃ t : TimeOfDay, t.Encodes raw ∧
      t.micros = ((hours * 60 + minute) * 60 + seconds) * microsPerSecond + hundredths * 10000 := by
  unfold serverClock at h
  split at h
  case isTrue =>
    simp only [Prod.mk.injEq] at h
    obtain ⟨h1, h2, h3, h4⟩ := h
    refine ⟨⟨hours, minute, seconds, hundredths, hhours, hminute, hseconds, by omega⟩, .inl ?_, rfl⟩
    simp only [TimeOfDay.hundredthsCode]
    omega
  case isFalse =>
    simp only [Prod.mk.injEq] at h
    obtain ⟨h1, h2, h3, rfl⟩ := h
    refine ⟨⟨hours, minute, seconds, 0, hhours, hminute, hseconds, by omega⟩, .inr ⟨rfl, ?_⟩, rfl⟩
    simp only [TimeOfDay.secondsCode]
    omega

/-! ## Calendars of daytime sessions -/

/-- An instant is in a continuous session of a date. -/
def TradingCalendar.InContinuousSession (calendar : TradingCalendar) (date : Date)
    (instant : Instant) : Prop :=
  ∃ s ∈ calendar.continuousSessions date, s.covers instant = true

/-- The continuous sessions of every date lie between 08:00 and 24:00 in the market's time
zone. -/
def DaytimeSessions (calendar : TradingCalendar) : Prop :=
  ∀ date, ∀ s ∈ calendar.continuousSessions date,
    date * microsPerDay ≤ s.opensAt ∧ s.closesAt ≤ date * microsPerDay + 2 * chinaOffset

/-- No session of another phase that comes before a continuous one overlaps it. -/
def NoneHidden (calendar : TradingCalendar) : Prop :=
  ∀ date sessions, calendar date = some sessions → sessions.Pairwise fun s t =>
    t.phase ∈ continuousSessionPhases → s.phase ∉ continuousSessionPhases →
      s.closesAt ≤ t.opensAt ∨ t.closesAt ≤ s.opensAt

/-- Where none is hidden, an instant is in a continuous phase when a continuous session of
its date covers it. -/
theorem phaseAt_mem_continuous_iff {calendar : TradingCalendar} (h : NoneHidden calendar)
    (instant : Instant) :
    calendar.phaseAt instant ∈ continuousSessionPhases ↔
      calendar.InContinuousSession (utcDate instant) instant := by
  have hfixed : ∀ {p : Prop} [Decidable p] {q : Prop} [Decidable q],
      (if p then "PRE_OPEN" else if q then "CLOSED" else "BREAK") ∉ continuousSessionPhases := by
    intro p _ q _
    split_ifs <;> decide
  unfold TradingCalendar.phaseAt TradingCalendar.InContinuousSession
    TradingCalendar.continuousSessions
  cases hday : calendar (utcDate instant) with
  | none => simp [continuousSessionPhases]
  | some sessions =>
    cases sessions with
    | nil => simp [continuousSessionPhases]
    | cons first rest =>
      have hpairs := h _ _ hday
      simp only [Option.getD_some, List.mem_filter, decide_eq_true_eq]
      cases hfind : (first :: rest).find? fun s => s.covers instant with
      | none =>
        refine iff_of_false hfixed ?_
        rintro ⟨s, ⟨hs, -⟩, hcovers⟩
        exact List.find?_eq_none.mp hfind s hs hcovers
      | some s =>
        obtain ⟨hcovers, before, after, hsplit, hbefore⟩ := List.find?_eq_some_iff_append.mp hfind
        constructor
        · intro hphase
          exact ⟨s, ⟨List.mem_of_find?_eq_some hfind, hphase⟩, hcovers⟩
        · rintro ⟨t, ⟨ht, htphase⟩, htcovers⟩
          by_contra hphase
          -- The continuous session comes after the one in force, so the two do not overlap.
          have hafter : t ∈ after := by
            rw [hsplit, List.mem_append, List.mem_cons] at ht
            rcases ht with ht | rfl | ht
            · exact absurd htcovers (by simpa using hbefore t ht)
            · exact absurd htphase hphase
            · exact ht
          rw [hsplit] at hpairs
          have hdisjoint := (List.pairwise_cons.mp (List.pairwise_append.mp hpairs).2.1).1 t hafter
            htphase hphase
          simp only [TradingSession.covers, decide_eq_true_eq] at hcovers htcovers
          rcases hdisjoint with hle | hle
          · exact absurd (hcovers.2.trans_le (hle.trans htcovers.1)) (lt_irrefl _)
          · exact absurd (htcovers.2.trans_le (hle.trans hcovers.1)) (lt_irrefl _)

/-- The time that a quote's fields stand for, when it is in a continuous phase. -/
theorem tdxQuoteTime_eq (calendar : TradingCalendar) (receivedAt : Instant) {raw : ℕ}
    {t : TimeOfDay} (h : serverClock raw = (t.hours, t.minute, t.seconds, t.hundredths)) :
    calendar.tdxQuoteTime receivedAt raw =
      if calendar.phaseAt (t.on (chinaDate receivedAt)) ∈ continuousSessionPhases then
        some (t.on (chinaDate receivedAt))
      else none := by
  unfold TradingCalendar.tdxQuoteTime
  rw [if_neg (Int.natCast_nonneg raw).not_gt, Int.toNat_natCast, h]
  dsimp only
  rw [if_pos ⟨t.hours_le, t.minute_le, t.seconds_le⟩, TimeOfDay.on, TimeOfDay.micros,
    ← Nat.add_assoc]

/-! ## Decoding -/

theorem day_eq_offsets : microsPerDay = 3 * chinaOffset := by decide

/-- The date of a time of day in another zone. -/
theorem shifted_div {day offset micros : ℕ} (hmicros : micros < 3 * offset) :
    ((day + 1) * (3 * offset) + micros - offset) / (3 * offset) =
      if offset ≤ micros then day + 1 else day := by
  have hmul : (day + 1) * (3 * offset) = day * (3 * offset) + 3 * offset := Nat.succ_mul _ _
  have hmul' : (day + 1 + 1) * (3 * offset) = (day + 1) * (3 * offset) + 3 * offset :=
    Nat.succ_mul _ _
  split
  case isTrue =>
    refine Nat.div_eq_of_lt_le (by omega) ?_
    rw [hmul']
    omega
  case isFalse => exact Nat.div_eq_of_lt_le (by omega) (by omega)

theorem exists_succ_of_pos {date : Date} (h : 0 < date) : ∃ day : ℕ, date = day + 1 :=
  ⟨date - 1, (Nat.sub_add_cancel h).symm⟩

/-- A time from eight o'clock on has the date of the market also in UTC, an earlier one the
date before. -/
theorem utcDate_on (t : TimeOfDay) (day : ℕ) :
    utcDate (t.on (day + 1)) = if chinaOffset ≤ t.micros then day + 1 else day := by
  have hmicros := t.micros_lt
  rw [utcDate, TimeOfDay.on]
  rw [day_eq_offsets] at hmicros ⊢
  exact shifted_div hmicros

/-- A time that a session of its date in UTC covers is not before eight o'clock. -/
theorem DaytimeSessions.hours_le_of_utc {calendar : TradingCalendar}
    (h : DaytimeSessions calendar) {t : TimeOfDay} {date : Date} (hdate : 0 < date)
    (hin : calendar.InContinuousSession (utcDate (t.on date)) (t.on date)) : 8 ≤ t.hours := by
  by_contra hearly
  obtain ⟨day, rfl⟩ := exists_succ_of_pos hdate
  have hoffset := mt t.offset_le_micros.mp hearly
  obtain ⟨s, hs, hcovers⟩ := hin
  simp only [TradingSession.covers, decide_eq_true_eq] at hcovers
  have hlt : t.on (day + 1) < _ := hcovers.2.trans_le (h _ s hs).2
  rw [utcDate_on, if_neg hoffset, TimeOfDay.on, day_eq_offsets] at hlt
  have hmul : (day + 1) * (3 * chinaOffset) = day * (3 * chinaOffset) + 3 * chinaOffset :=
    Nat.succ_mul _ _
  have hlt : (day + 1) * (3 * chinaOffset) + t.micros - chinaOffset <
      day * (3 * chinaOffset) + 2 * chinaOffset := hlt
  generalize chinaOffset = offset at hlt hmul
  omega

/-- Neither is one that a session of the day covers. -/
theorem DaytimeSessions.hours_le {calendar : TradingCalendar} (h : DaytimeSessions calendar)
    {t : TimeOfDay} {date : Date} (hdate : 0 < date)
    (hin : calendar.InContinuousSession date (t.on date)) : 8 ≤ t.hours := by
  by_contra hearly
  have hoffset : ¬chinaOffset ≤ t.micros := mt t.offset_le_micros.mp hearly
  obtain ⟨s, hs, hcovers⟩ := hin
  simp only [TradingSession.covers, decide_eq_true_eq] at hcovers
  obtain ⟨day, rfl⟩ := exists_succ_of_pos hdate
  have hpos : microsPerDay ≤ (day + 1) * microsPerDay := Nat.le_mul_of_pos_left _ hdate
  have hday := day_eq_offsets
  have hle : (day + 1) * microsPerDay ≤ (day + 1) * microsPerDay + t.micros - chinaOffset :=
    (h _ s hs).1.trans hcovers.1
  generalize chinaOffset = offset at hle hoffset hday
  generalize (day + 1) * microsPerDay = midnight at hle hpos
  omega

/-- The phase of a time is continuous when a session of the day covers it. -/
theorem phaseAt_on_iff {calendar : TradingCalendar} (hdaytime : DaytimeSessions calendar)
    (hhidden : NoneHidden calendar) (t : TimeOfDay) {date : Date} (hdate : 0 < date) :
    calendar.phaseAt (t.on date) ∈ continuousSessionPhases ↔
      calendar.InContinuousSession date (t.on date) := by
  rw [phaseAt_mem_continuous_iff hhidden]
  have hsame : 8 ≤ t.hours → utcDate (t.on date) = date := by
    intro hmorning
    obtain ⟨day, rfl⟩ := exists_succ_of_pos hdate
    rw [utcDate_on, if_pos (t.offset_le_micros.mpr hmorning)]
  constructor
  · intro hin
    rwa [hsame (hdaytime.hours_le_of_utc hdate hin)] at hin
  · intro hin
    rwa [hsame (hdaytime.hours_le hdate hin)]

/-- An integer that is not refused stands for a time of a continuous phase. -/
theorem encodes_of_tdxQuoteTime {calendar : TradingCalendar} {receivedAt : Instant} {raw : ℕ}
    (h : calendar.tdxQuoteTime receivedAt raw ≠ none) :
    ∃ t : TimeOfDay, t.Encodes raw ∧
      calendar.phaseAt (t.on (chinaDate receivedAt)) ∈ continuousSessionPhases := by
  obtain ⟨hours, minute, seconds, hundredths, hclock⟩ :
      ∃ hours minute seconds hundredths, serverClock raw = (hours, minute, seconds, hundredths) :=
    ⟨_, _, _, _, rfl⟩
  unfold TradingCalendar.tdxQuoteTime at h
  rw [if_neg (Int.natCast_nonneg raw).not_gt, Int.toNat_natCast, hclock] at h
  dsimp only at h
  split at h
  case isFalse => exact absurd rfl h
  case isTrue hfields =>
    obtain ⟨t, hencodes, hmicros⟩ := exists_encodes hclock hfields.1 hfields.2.1 hfields.2.2
    refine ⟨t, hencodes, ?_⟩
    by_contra hphase
    rw [TimeOfDay.on, hmicros, ← Nat.add_assoc] at hphase
    exact h (if_neg hphase)

/-- In a calendar of daytime sessions `tdx_quote_time` inverts both encodings of the times of
its sessions, which do not collide, and refuses every other integer. The date in the market's
time zone is after the first and up to the last that `datetime` has. -/
theorem tdx_quote_time_decodes (calendar : TradingCalendar) (hdaytime : DaytimeSessions calendar)
    (hhidden : NoneHidden calendar) (receivedAt : Instant)
    (hdates : 0 < chinaDate receivedAt ∧ receivedAt + chinaOffset < maxInstant) :
    (∀ t : TimeOfDay,
      calendar.InContinuousSession (chinaDate receivedAt) (t.on (chinaDate receivedAt)) →
        ∀ raw, t.Encodes raw →
          calendar.tdxQuoteTime receivedAt raw = some (t.on (chinaDate receivedAt))) ∧
    (∀ t u : TimeOfDay,
      calendar.InContinuousSession (chinaDate receivedAt) (t.on (chinaDate receivedAt)) →
        u.secondsCode ≠ t.hundredthsCode) ∧
    ∀ raw : ℤ, (∀ t : TimeOfDay,
      calendar.InContinuousSession (chinaDate receivedAt) (t.on (chinaDate receivedAt)) →
        ¬t.Encodes raw) → calendar.tdxQuoteTime receivedAt raw = none := by
  obtain ⟨hdate, -⟩ := hdates
  have hphase := fun t => phaseAt_on_iff hdaytime hhidden t hdate
  refine ⟨fun t hin raw hraw => ?_, fun t u hin hcode => ?_, fun raw hraw => ?_⟩
  · have hmorning := hdaytime.hours_le hdate hin
    rcases hraw with rfl | ⟨hwhole, rfl⟩
    · rw [tdxQuoteTime_eq calendar receivedAt (t.serverClock_hundredthsCode hmorning),
        if_pos ((hphase t).mpr hin)]
    · have hclock := t.serverClock_secondsCode
      rw [← hwhole] at hclock
      rw [tdxQuoteTime_eq calendar receivedAt hclock, if_pos ((hphase t).mpr hin)]
  · have hmorning := hdaytime.hours_le hdate hin
    have := u.hours_le
    have := u.minute_le
    have := u.seconds_le
    unfold TimeOfDay.secondsCode TimeOfDay.hundredthsCode at hcode
    omega
  · rcases lt_or_ge raw 0 with hneg | hnonneg
    · rw [TradingCalendar.tdxQuoteTime, if_pos hneg]
    · obtain ⟨n, rfl⟩ := Int.eq_ofNat_of_zero_le hnonneg
      by_contra hsome
      obtain ⟨t, hencodes, hin⟩ := encodes_of_tdxQuoteTime hsome
      exact hraw t ((hphase t).mp hin) hencodes

/-- A quarter to ten. -/
def quarterToTen : TimeOfDay := ⟨9, 45, 0, 0, by decide, by decide, by decide, by decide⟩

/-- A quarter to ten of a trading day, in both encodings. -/
theorem sampleTradingDay_quote_time :
    sampleTradingDay.tdxQuoteTime (minutes (738000 * 1440 + 106)) 94500 =
        some (minutes (738000 * 1440 + 105)) ∧
      sampleTradingDay.tdxQuoteTime (minutes (738000 * 1440 + 106)) 9450000 =
        some (minutes (738000 * 1440 + 105)) := by
  have hdaytime : DaytimeSessions sampleTradingDay := by
    intro date s hs
    unfold TradingCalendar.continuousSessions sampleTradingDay at hs
    split at hs
    case isTrue hdate =>
      rw [hdate]
      revert s
      decide +kernel
    case isFalse => cases hs
  have hhidden : NoneHidden sampleTradingDay := by
    intro date sessions hsessions
    unfold sampleTradingDay at hsessions
    split at hsessions
    case isTrue =>
      obtain rfl := Option.some.inj hsessions
      decide
    case isFalse => cases hsessions
  obtain ⟨hdecodes, -, -⟩ := tdx_quote_time_decodes sampleTradingDay hdaytime hhidden
    (minutes (738000 * 1440 + 106)) ⟨by decide +kernel, by decide +kernel⟩
  have hin : sampleTradingDay.InContinuousSession (chinaDate (minutes (738000 * 1440 + 106)))
      (quarterToTen.on (chinaDate (minutes (738000 * 1440 + 106)))) :=
    ⟨⟨"CONTINUOUS_AM", minutes (738000 * 1440 + 90), minutes (738000 * 1440 + 210)⟩,
      by decide +kernel, by decide +kernel⟩
  exact ⟨hdecodes quarterToTen hin 94500 (.inr ⟨rfl, rfl⟩),
    hdecodes quarterToTen hin 9450000 (.inl rfl)⟩

/-- An auction that overlaps the morning session and comes before it. -/
def overlappedMorning : List TradingSession :=
  [⟨"CALL_AUCTION", minutes (738000 * 1440 + 60), minutes (738000 * 1440 + 120)⟩,
    ⟨"CONTINUOUS_AM", minutes (738000 * 1440 + 90), minutes (738000 * 1440 + 210)⟩]

/-- The clock imports the day, and refuses a time of its continuous session. -/
theorem overlapped_morning_quote_time :
    ∃ days, importDay (fun _ => none) "SSE" 738000 "Asia/Shanghai" overlappedMorning =
        .ok (true, days) ∧
      DaytimeSessions (calendarOf days) ∧
      (calendarOf days).InContinuousSession (chinaDate (minutes (738000 * 1440 + 106)))
        (quarterToTen.on (chinaDate (minutes (738000 * 1440 + 106)))) ∧
      (calendarOf days).tdxQuoteTime (minutes (738000 * 1440 + 106)) quarterToTen.secondsCode =
        none := by
  refine ⟨fun date => if date = 738000 then some ⟨"Asia/Shanghai", overlappedMorning⟩ else none,
    ?_, ?_, ?_, ?_⟩
  · unfold importDay
    rw [if_neg (by decide +kernel), if_neg (by decide +kernel), if_neg (by decide +kernel)]
  · intro date s hs
    unfold TradingCalendar.continuousSessions calendarOf at hs
    dsimp only at hs
    split at hs
    case isTrue hdate =>
      rw [hdate]
      revert s
      decide +kernel
    case isFalse => cases hs
  · exact ⟨⟨"CONTINUOUS_AM", minutes (738000 * 1440 + 90), minutes (738000 * 1440 + 210)⟩,
      by decide +kernel, by decide +kernel⟩
  · decide +kernel

end MarketMonitor
