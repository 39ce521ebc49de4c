import Mathlib.Algebra.Order.Group.Abs
import Mathlib.Data.Set.Card
import MarketMonitor.MarketData.TradingClock

/-!
# Legal minutes

The minutes of the continuous sessions of a day : how many lie between two instants, the
number of the minute an instant is in, and the last completed ones before a target. All
three are read off the continuous time of the day that has passed (`continuousTime`) and
its right edges (`rightEdges`).
-/

namespace MarketMonitor

/-! ## The questions of the clock -/

/-- The loop of `market_minutes_between` over the sessions of the day. -/
def overlapTime (startAt endAt : Instant) : List TradingSession → ℕ → ℕ
  | [], elapsed => elapsed
  | s :: sessions, elapsed =>
    let overlapStart := max startAt s.opensAt
    let overlapEnd := min endAt s.closesAt
    overlapTime startAt endAt sessions
      (if overlapStart < overlapEnd then elapsed + (overlapEnd - overlapStart) else elapsed)

/-- `TradingClock.market_minutes_between(exchange, start, end)`. -/
def TradingCalendar.marketMinutesBetween (calendar : TradingCalendar)
    (startAt endAt : Instant) : Except Exn ℕ :=
  if endAt ≤ startAt then .ok 0
  else if chinaDate endAt ≠ chinaDate startAt then
    .error (valueError "market-minute bounds must use one trading day")
  else
    .ok (overlapTime startAt endAt (calendar.continuousSessions (chinaDate startAt)) 0
      / minutes 1)

/-- The loop of `market_minute_index` over the sessions of the day. -/
def minuteIndex (instant : Instant) : List TradingSession → ℕ → Option ℕ
  | [], _ => none
  | s :: sessions, elapsed =>
    if instant < s.opensAt then none
    else if instant ≤ s.closesAt then some ((elapsed + (instant - s.opensAt)) / minutes 1)
    else minuteIndex instant sessions (elapsed + (s.closesAt - s.opensAt))

/-- `TradingClock.market_minute_index(exchange, instant)`. -/
def TradingCalendar.marketMinuteIndex (calendar : TradingCalendar) (instant : Instant) :
    Option ℕ :=
  minuteIndex instant (calendar.continuousSessions (chinaDate instant)) 0

/-- The inner loop of `completed_legal_minute_tail` : the minutes of a session from `current`
down, of which `wanted` are still wanted. -/
def sessionTail (opensAt : Instant) : ℕ → Instant → List Instant
  | 0, _ => []
  | wanted + 1, current =>
    if opensAt < current then current :: sessionTail opensAt wanted (current - minutes 1) else []

/-- The outer loop of `completed_legal_minute_tail` over the reversed sessions of the day. -/
def minuteTail (target : Instant) : List TradingSession → ℕ → List Instant
  | [], _ => []
  | s :: sessions, wanted =>
    let values := sessionTail s.opensAt wanted (min target s.closesAt)
    if values.length = wanted then values
    else values ++ minuteTail target sessions (wanted - values.length)

/-- `TradingClock.completed_legal_minute_tail(exchange, target, count)`. -/
def TradingCalendar.completedLegalMinuteTail (calendar : TradingCalendar) (target : Instant)
    (count : ℤ) : Except Exn (List Instant) :=
  if count < 1 then .error (valueError "market-minute tail count must be positive")
  else if target ≠ minuteFloor target then
    .error (valueError "market-minute target must be a whole-minute right edge")
  else if calendar.latestCompletedLegalMinute target ≠ some target then
    .error (valueError "market-minute target must be a completed legal right edge")
  else
    .ok (minuteTail target (calendar.continuousSessions (chinaDate target)).reverse
      count.toNat).reverse

/-! ## Days of whole minutes -/

/-- The continuous sessions of a day are sorted and disjoint, and begin and end on whole
minutes. -/
structure WholeMinuteSessions (sessions : List TradingSession) : Prop where
  sorted : sessions.Pairwise fun s t => s.closesAt ≤ t.opensAt
  nonempty : ∀ s ∈ sessions, s.opensAt < s.closesAt
  whole : ∀ s ∈ sessions, minutes 1 ∣ s.opensAt ∧ minutes 1 ∣ s.closesAt

/-- An instant is in a session, its close included. -/
def InSession (sessions : List TradingSession) (instant : Instant) : Prop :=
  ∃ s ∈ sessions, s.opensAt ≤ instant ∧ instant ≤ s.closesAt

/-- A whole minute that ends within a session. -/
def LegalEdge (sessions : List TradingSession) (minute : Instant) : Prop :=
  minutes 1 ∣ minute ∧ ∃ s ∈ sessions, s.opensAt < minute ∧ minute ≤ s.closesAt

theorem minutes_pos : 0 < minutes 1 := by decide

theorem minuteFloor_eq_iff (instant : Instant) :
    minuteFloor instant = instant ↔ minutes 1 ∣ instant :=
  ⟨fun h => h ▸ Nat.dvd_mul_left _ _, Nat.div_mul_cancel⟩

namespace WholeMinuteSessions

variable {s : TradingSession} {sessions : List TradingSession}

theorem tail (h : WholeMinuteSessions (s :: sessions)) : WholeMinuteSessions sessions where
  sorted := (List.pairwise_cons.mp h.sorted).2
  nonempty t ht := h.nonempty t (List.mem_cons_of_mem _ ht)
  whole t ht := h.whole t (List.mem_cons_of_mem _ ht)

theorem head_le (h : WholeMinuteSessions (s :: sessions)) :
    ∀ t ∈ sessions, s.closesAt ≤ t.opensAt :=
  (List.pairwise_cons.mp h.sorted).1

end WholeMinuteSessions

/-! ## Continuous time -/

/-- The continuous time of a day that has passed at an instant. -/
def continuousTime (instant : Instant) (sessions : List TradingSession) : ℕ :=
  (sessions.map fun s => min instant s.closesAt - s.opensAt).sum

@[simp]
theorem continuousTime_nil (instant : Instant) : continuousTime instant [] = 0 := rfl

@[simp]
theorem continuousTime_cons (instant : Instant) (s : TradingSession)
    (sessions : List TradingSession) :
    continuousTime instant (s :: sessions) =
      (min instant s.closesAt - s.opensAt) + continuousTime instant sessions := by
  simp [continuousTime]

theorem continuousTime_mono {a b : Instant} (hab : a ≤ b) (sessions : List TradingSession) :
    continuousTime a sessions ≤ continuousTime b sessions := by
  induction sessions with
  | nil => simp
  | cons s sessions ih =>
    simp only [continuousTime_cons]
    lia

/-- No continuous time has passed before the first opening. -/
theorem continuousTime_eq_zero {instant : Instant} {sessions : List TradingSession}
    (h : ∀ s ∈ sessions, instant ≤ s.opensAt) : continuousTime instant sessions = 0 := by
  induction sessions with
  | nil => rfl
  | cons s sessions ih =>
    have hs := h s List.mem_cons_self
    have := ih fun t ht => h t (List.mem_cons_of_mem _ ht)
    simp only [continuousTime_cons]
    lia

/-- At a whole minute a whole number of minutes has passed. -/
theorem dvd_continuousTime {instant : Instant} {sessions : List TradingSession}
    (h : WholeMinuteSessions sessions) (hinstant : minutes 1 ∣ instant) :
    minutes 1 ∣ continuousTime instant sessions := by
  induction sessions with
  | nil => simp
  | cons s sessions ih =>
    obtain ⟨hopen, hclose⟩ := h.whole s List.mem_cons_self
    have hmin : minutes 1 ∣ min instant s.closesAt := by
      rcases min_choice instant s.closesAt with hm | hm <;> rw [hm] <;> assumption
    rw [continuousTime_cons]
    exact Nat.dvd_add (Nat.dvd_sub hmin hopen) (ih h.tail)

/-- The overlaps with a window are the continuous time that passes in it. -/
theorem overlapTime_eq {a b : Instant} (hab : a ≤ b) {sessions : List TradingSession}
    (h : ∀ s ∈ sessions, s.opensAt < s.closesAt) (elapsed : ℕ) :
    overlapTime a b sessions elapsed =
      elapsed + (continuousTime b sessions - continuousTime a sessions) := by
  induction sessions generalizing elapsed with
  | nil => simp [overlapTime]
  | cons s sessions ih =>
    have hs := h s List.mem_cons_self
    have hmono := continuousTime_mono hab sessions
    rw [overlapTime, ih fun t ht => h t (List.mem_cons_of_mem _ ht)]
    simp only [continuousTime_cons]
    split <;> lia

/-- Inside a session the index counts the minutes of the continuous time passed. -/
theorem minuteIndex_eq {instant : Instant} {sessions : List TradingSession}
    (h : WholeMinuteSessions sessions) (hin : InSession sessions instant) (elapsed : ℕ) :
    minuteIndex instant sessions elapsed =
      some ((elapsed + continuousTime instant sessions) / minutes 1) := by
  induction sessions generalizing elapsed with
  | nil => simp [InSession] at hin
  | cons s sessions ih =>
    obtain ⟨t, ht, hopen, hclose⟩ := hin
    have hs := h.nonempty s List.mem_cons_self
    have hlow : s.opensAt ≤ instant := by
      rcases List.mem_cons.mp ht with rfl | ht
      · exact hopen
      · have := h.head_le t ht
        lia
    rw [minuteIndex, if_neg (by lia), continuousTime_cons]
    split
    case isTrue hle =>
      have hrest : continuousTime instant sessions = 0 :=
        continuousTime_eq_zero fun u hu => hle.trans (h.head_le u hu)
      rw [hrest, Nat.min_eq_left hle, Nat.add_zero]
    case isFalse hgt =>
      have hin : InSession sessions instant := by
        rcases List.mem_cons.mp ht with rfl | ht
        · exact absurd hclose hgt
        · exact ⟨t, ht, hopen, hclose⟩
      rw [ih h.tail hin, Nat.min_eq_right (by lia), Nat.add_assoc]

/-! ## The minutes between and the index -/

/-- Flooring a difference and the difference of the floors are at most one apart. -/
theorem div_sub_div_bounds {x y m : ℕ} (hm : 0 < m) (hxy : x ≤ y) :
    (y - x) / m ≤ y / m - x / m ∧ y / m - x / m ≤ (y - x) / m + 1 := by
  obtain ⟨d, rfl⟩ := Nat.exists_eq_add_of_le hxy
  rw [Nat.add_sub_cancel_left, Nat.add_div hm]
  generalize d / m = rest
  split <;> omega

theorem div_sub_div_of_dvd {x y m : ℕ} (hx : m ∣ x) : (y - x) / m = y / m - x / m := by
  obtain ⟨k, rfl⟩ := hx
  rcases Nat.eq_zero_or_pos m with rfl | hm
  · simp
  · rw [Nat.sub_mul_div, Nat.mul_div_cancel_left k hm]

/-- What `market_minutes_between` returns inside one day. -/
theorem marketMinutesBetween_eq (calendar : TradingCalendar) {day : Date} {a b : Instant}
    (h : WholeMinuteSessions (calendar.continuousSessions day)) (hab : a ≤ b)
    (ha : chinaDate a = day) (hb : chinaDate b = day) :
    calendar.marketMinutesBetween a b =
      .ok ((continuousTime b (calendar.continuousSessions day)
        - continuousTime a (calendar.continuousSessions day)) / minutes 1) := by
  rw [TradingCalendar.marketMinutesBetween]
  split
  case isTrue hba =>
    obtain rfl : a = b := le_antisymm hab hba
    rw [Nat.sub_self, Nat.zero_div]
  case isFalse =>
    rw [if_neg (by rw [ha, hb]; exact fun hne => hne rfl), ha, overlapTime_eq hab h.nonempty,
      Nat.zero_add]

theorem marketMinuteIndex_eq (calendar : TradingCalendar) {day : Date} {instant : Instant}
    (h : WholeMinuteSessions (calendar.continuousSessions day)) (hday : chinaDate instant = day)
    (hin : InSession (calendar.continuousSessions day) instant) :
    calendar.marketMinuteIndex instant =
      some (continuousTime instant (calendar.continuousSessions day) / minutes 1) := by
  rw [TradingCalendar.marketMinuteIndex, hday, minuteIndex_eq h hin, Nat.zero_add]

/-! ## Right edges -/

/-- The whole minutes of a session from `last` down to its opening. -/
def rightEdges (opensAt last : Instant) : List Instant :=
  (List.range ((last - opensAt) / minutes 1)).map fun i => last - i * minutes 1

/-- The right edges between two whole minutes. -/
theorem rightEdges_mul (first last : ℕ) :
    rightEdges (minutes 1 * first) (minutes 1 * last) =
      (List.range (last - first)).map fun i => minutes 1 * (last - i) := by
  rw [rightEdges, ← Nat.mul_sub, Nat.mul_div_cancel_left _ minutes_pos]
  refine List.map_congr_left fun i _ => ?_
  rw [Nat.mul_sub, Nat.mul_comm i]

theorem rightEdges_of_le {opensAt last : Instant} (h : last ≤ opensAt) :
    rightEdges opensAt last = [] := by
  rw [rightEdges, Nat.sub_eq_zero_of_le h]
  rfl

/-- The edges before the last one. -/
theorem rightEdges_of_lt {opensAt last : Instant} (h : opensAt < last)
    (hopen : minutes 1 ∣ opensAt) (hlast : minutes 1 ∣ last) :
    rightEdges opensAt last = last :: rightEdges opensAt (last - minutes 1) := by
  obtain ⟨first, rfl⟩ := hopen
  obtain ⟨final, rfl⟩ := hlast
  have hlt : first < final := Nat.lt_of_mul_lt_mul_left h
  have hpred : minutes 1 * final - minutes 1 = minutes 1 * (final - 1) := by
    rw [Nat.mul_sub, Nat.mul_one]
  have hcount : final - first = (final - 1 - first) + 1 := by omega
  rw [hpred, rightEdges_mul, rightEdges_mul, hcount, List.range_succ_eq_map, List.map_cons,
    List.map_map, Nat.sub_zero]
  refine congrArg _ (List.map_congr_left fun i _ => ?_)
  rw [Function.comp_apply, Nat.sub_sub, Nat.add_comm 1]

/-- The inner loop takes the first right edges of a session. -/
theorem sessionTail_eq {opensAt : Instant} (hopen : minutes 1 ∣ opensAt) (wanted : ℕ)
    {current : Instant} (hcurrent : minutes 1 ∣ current) :
    sessionTail opensAt wanted current = (rightEdges opensAt current).take wanted := by
  induction wanted generalizing current with
  | zero => simp [sessionTail]
  | succ wanted ih =>
    rw [sessionTail]
    split
    case isTrue h =>
      rw [ih (Nat.dvd_sub hcurrent dvd_rfl), rightEdges_of_lt h hopen hcurrent,
        List.take_succ_cons]
    case isFalse h => rw [rightEdges_of_le (Nat.le_of_not_lt h), List.take_nil]

/-- The right edges of a session up to `last`. -/
theorem mem_rightEdges {opensAt last : Instant} (hopen : minutes 1 ∣ opensAt)
    (hlast : minutes 1 ∣ last) {minute : Instant} :
    minute ∈ rightEdges opensAt last ↔
      minutes 1 ∣ minute ∧ opensAt < minute ∧ minute ≤ last := by
  obtain ⟨first, rfl⟩ := hopen
  obtain ⟨final, rfl⟩ := hlast
  simp only [rightEdges_mul, List.mem_map, List.mem_range]
  constructor
  · rintro ⟨i, hi, rfl⟩
    exact ⟨dvd_mul_right _ _, Nat.mul_lt_mul_of_pos_left (by omega) minutes_pos,
      Nat.mul_le_mul_left _ (Nat.sub_le _ _)⟩
  · rintro ⟨⟨k, rfl⟩, hlow, hhigh⟩
    have hlow := Nat.lt_of_mul_lt_mul_left hlow
    have hhigh := Nat.le_of_mul_le_mul_left hhigh minutes_pos
    exact ⟨final - k, by omega, by rw [Nat.sub_sub_self hhigh]⟩

theorem rightEdges_pairwise {opensAt last : Instant} (hopen : minutes 1 ∣ opensAt)
    (hlast : minutes 1 ∣ last) : (rightEdges opensAt last).Pairwise (· > ·) := by
  obtain ⟨first, rfl⟩ := hopen
  obtain ⟨final, rfl⟩ := hlast
  rw [rightEdges_mul, List.pairwise_map]
  refine List.pairwise_lt_range.imp_of_mem fun {i j} _ hj hij => ?_
  have hj := List.mem_range.mp hj
  exact Nat.mul_lt_mul_of_pos_left (by omega) minutes_pos

/-- The right edges up to a target of sessions listed from the last one on. -/
def edgesDown (target : Instant) (sessions : List TradingSession) : List Instant :=
  sessions.flatMap fun s => rightEdges s.opensAt (min target s.closesAt)

theorem dvd_min_close {target closesAt : Instant} (htarget : minutes 1 ∣ target)
    (hclose : minutes 1 ∣ closesAt) : minutes 1 ∣ min target closesAt := by
  rcases min_choice target closesAt with hm | hm <;> rw [hm] <;> assumption

/-- The loops of `completed_legal_minute_tail` take the first right edges of the day. -/
theorem minuteTail_eq {target : Instant} (htarget : minutes 1 ∣ target)
    {sessions : List TradingSession}
    (h : ∀ s ∈ sessions, minutes 1 ∣ s.opensAt ∧ minutes 1 ∣ s.closesAt) (wanted : ℕ) :
    minuteTail target sessions wanted = (edgesDown target sessions).take wanted := by
  induction sessions generalizing wanted with
  | nil => simp [minuteTail, edgesDown]
  | cons s sessions ih =>
    obtain ⟨hopen, hclose⟩ := h s List.mem_cons_self
    have hrest := ih fun t ht => h t (List.mem_cons_of_mem _ ht)
    simp only [minuteTail, edgesDown, List.flatMap_cons,
      sessionTail_eq hopen wanted (dvd_min_close htarget hclose), hrest, List.take_append,
      List.length_take]
    split
    case isTrue hfull =>
      have hnone : wanted - (rightEdges s.opensAt (min target s.closesAt)).length = 0 := by omega
      rw [hnone, List.take_zero, List.append_nil]
    case isFalse hpart =>
      have hshort : (rightEdges s.opensAt (min target s.closesAt)).length ≤ wanted := by omega
      rw [Nat.min_eq_right hshort]

/-- The right edges of a day up to a target. -/
theorem mem_edgesDown {target : Instant} (htarget : minutes 1 ∣ target)
    {sessions : List TradingSession}
    (h : ∀ s ∈ sessions, minutes 1 ∣ s.opensAt ∧ minutes 1 ∣ s.closesAt) {minute : Instant} :
    minute ∈ edgesDown target sessions ↔ LegalEdge sessions minute ∧ minute ≤ target := by
  simp only [edgesDown, List.mem_flatMap, LegalEdge]
  constructor
  · rintro ⟨s, hs, hmem⟩
    obtain ⟨hdvd, hlow, hhigh⟩ :=
      (mem_rightEdges (h s hs).1 (dvd_min_close htarget (h s hs).2)).mp hmem
    exact ⟨⟨hdvd, s, hs, hlow, hhigh.trans (min_le_right _ _)⟩, hhigh.trans (min_le_left _ _)⟩
  · rintro ⟨⟨hdvd, s, hs, hlow, hhigh⟩, hle⟩
    exact ⟨s, hs, (mem_rightEdges (h s hs).1 (dvd_min_close htarget (h s hs).2)).mpr
      ⟨hdvd, hlow, le_min hle hhigh⟩⟩

/-- Across the breaks of the day the right edges descend. -/
theorem edgesDown_pairwise {target : Instant} (htarget : minutes 1 ∣ target)
    {sessions : List TradingSession} (h : WholeMinuteSessions sessions) :
    (edgesDown target sessions.reverse).Pairwise (· > ·) := by
  rw [edgesDown, List.pairwise_flatMap]
  refine ⟨fun s hs => ?_, ?_⟩
  · obtain ⟨hopen, hclose⟩ := h.whole s (List.mem_reverse.mp hs)
    exact rightEdges_pairwise hopen (dvd_min_close htarget hclose)
  · refine List.pairwise_reverse.mpr (h.sorted.imp_of_mem fun {t s} ht hs hbreak x hx y hy => ?_)
    obtain ⟨hopen, hclose⟩ := h.whole s hs
    obtain ⟨hopen', hclose'⟩ := h.whole t ht
    obtain ⟨-, hlow, -⟩ := (mem_rightEdges hopen (dvd_min_close htarget hclose)).mp hx
    obtain ⟨-, -, hhigh⟩ := (mem_rightEdges hopen' (dvd_min_close htarget hclose')).mp hy
    exact ((hhigh.trans (min_le_right _ _)).trans hbreak).trans_lt hlow

/-! ## The tail -/

/-- What `completed_legal_minute_tail(target, count)` is to return : the last `count` right
edges of the day up to the target. -/
structure LastLegalMinutes (sessions : List TradingSession) (target : Instant) (count : ℕ)
    (tail : List Instant) : Prop where
  increasing : tail.Pairwise (· < ·)
  ends : tail.getLast? = some target
  legal : ∀ minute ∈ tail, LegalEdge sessions minute
  length : tail.length =
    min count (Set.ncard {minute | LegalEdge sessions minute ∧ minute ≤ target})
  /-- No legal minute between two of the tail is left out. -/
  consecutive : ∀ minute, LegalEdge sessions minute → minute ≤ target →
    (∃ first ∈ tail, first ≤ minute) → minute ∈ tail

/-- The candidate of `latest_completed_legal_minute` is a right edge. -/
theorem latestLegalMinute_legal {instant minute : Instant} {sessions : List TradingSession}
    {candidate : Option Instant}
    (h : latestLegalMinute instant sessions candidate = some minute) :
    candidate = some minute ∨ LegalEdge sessions minute := by
  induction sessions generalizing candidate with
  | nil => exact .inl h
  | cons s sessions ih =>
    have hrest {candidate : Option Instant}
        (h : latestLegalMinute instant sessions candidate = some minute) :
        candidate = some minute ∨ LegalEdge (s :: sessions) minute :=
      (ih h).imp_right fun ⟨hdvd, t, ht, hin⟩ => ⟨hdvd, t, List.mem_cons_of_mem _ ht, hin⟩
    have hhere (hin : s.opensAt < minuteFloor (min instant s.closesAt) ∧
        minuteFloor (min instant s.closesAt) ≤ s.closesAt)
        (heq : some (minuteFloor (min instant s.closesAt)) = some minute) :
        LegalEdge (s :: sessions) minute := by
      obtain rfl := Option.some.inj heq
      exact ⟨Nat.dvd_mul_left _ _, s, List.mem_cons_self, hin⟩
    rw [latestLegalMinute] at h
    dsimp only at h
    split at h
    · exact hrest h
    · have hcandidate : (if s.opensAt < minuteFloor (min instant s.closesAt) ∧
          minuteFloor (min instant s.closesAt) ≤ s.closesAt then
            some (minuteFloor (min instant s.closesAt)) else candidate) = some minute →
          candidate = some minute ∨ LegalEdge (s :: sessions) minute := by
        split
        case isTrue hin => exact fun heq => .inr (hhere hin heq)
        case isFalse => exact .inl
      split at h
      · exact hcandidate h
      · exact (hrest h).elim hcandidate .inr

/-- A tail that is returned is the last right edges of the day. -/
theorem completedLegalMinuteTail_ok (calendar : TradingCalendar) {day : Date} {target : Instant}
    {count : ℤ} {tail : List Instant}
    (h : WholeMinuteSessions (calendar.continuousSessions day)) (hday : chinaDate target = day)
    (hok : calendar.completedLegalMinuteTail target count = .ok tail) :
    LastLegalMinutes (calendar.continuousSessions day) target count.toNat tail := by
  subst hday
  rw [TradingCalendar.completedLegalMinuteTail] at hok
  split at hok
  · cases hok
  rename_i hcount
  split at hok
  · cases hok
  rename_i hwhole
  split at hok
  · cases hok
  rename_i hlatest
  have htarget : minutes 1 ∣ target := (minuteFloor_eq_iff target).mp (not_not.mp hwhole).symm
  have hlegal : LegalEdge (calendar.continuousSessions (chinaDate target)) target :=
    (latestLegalMinute_legal (not_not.mp hlatest)).resolve_left (by simp)
  generalize hsessions : calendar.continuousSessions (chinaDate target) = sessions at *
  have hreversed (s) (hs : s ∈ sessions.reverse) :
      minutes 1 ∣ s.opensAt ∧ minutes 1 ∣ s.closesAt := h.whole s (List.mem_reverse.mp hs)
  rw [minuteTail_eq htarget hreversed] at hok
  obtain rfl := Except.ok.inj hok
  have hmem (minute : Instant) : minute ∈ edgesDown target sessions.reverse ↔
      LegalEdge sessions minute ∧ minute ≤ target := by
    rw [mem_edgesDown htarget hreversed, LegalEdge, LegalEdge]
    simp only [List.mem_reverse]
  have hsorted := edgesDown_pairwise htarget h
  have hpos : 0 < count.toNat := by omega
  refine ⟨?_, ?_, ?_, ?_, ?_⟩
  · exact List.pairwise_reverse.mpr (hsorted.sublist (List.take_sublist _ _))
  · -- The target is a right edge, and no right edge up to it is later.
    rw [List.getLast?_reverse, List.head?_take, if_neg hpos.ne']
    have htop := (hmem target).mpr ⟨hlegal, le_rfl⟩
    cases hedges : edgesDown target sessions.reverse with
    | nil => rw [hedges] at htop; cases htop
    | cons first rest =>
      rw [hedges] at htop hsorted
      have hfirst : first ≤ target := ((hmem first).mp (hedges ▸ List.mem_cons_self)).2
      rcases List.mem_cons.mp htop with rfl | hrest
      · rfl
      · exact absurd ((List.pairwise_cons.mp hsorted).1 target hrest) (Nat.not_lt.mpr hfirst)
  · intro minute hminute
    exact ((hmem minute).mp (List.mem_of_mem_take (List.mem_reverse.mp hminute))).1
  · have hset : {minute | LegalEdge sessions minute ∧ minute ≤ target} =
        ↑(edgesDown target sessions.reverse).toFinset := by
      ext minute
      rw [List.coe_toFinset, Set.mem_ofPred_eq, Set.mem_ofPred_eq, hmem]
    rw [hset, Set.ncard_coe_finset, List.toFinset_card_of_nodup (hsorted.imp ne_of_gt),
      List.length_reverse, List.length_take]
  · rintro minute hminute hle ⟨first, hfirst, hfirstle⟩
    have hall := (hmem minute).mpr ⟨hminute, hle⟩
    rw [List.mem_reverse] at hfirst ⊢
    rw [← List.take_append_drop count.toNat (edgesDown target sessions.reverse)] at hall hsorted
    refine (List.mem_append.mp hall).resolve_right fun hdrop => ?_
    exact absurd ((List.pairwise_append.mp hsorted).2.2 first hfirst minute hdrop)
      (Nat.not_lt.mpr hfirstle)

/-! ## Consistency -/

/-- The minutes between two instants, the index and the tail agree with one another on every
day of whole-minute sessions. -/
theorem legal_minutes_consistent (calendar : TradingCalendar) (day : Date)
    (h : WholeMinuteSessions (calendar.continuousSessions day)) :
    (∀ a b : Instant, a ≤ b → chinaDate a = day → chinaDate b = day →
      InSession (calendar.continuousSessions day) a →
      InSession (calendar.continuousSessions day) b →
      ∃ between first second : ℕ, calendar.marketMinutesBetween a b = .ok between ∧
        calendar.marketMinuteIndex a = some first ∧
        calendar.marketMinuteIndex b = some second ∧ first ≤ second ∧
        |(between : ℤ) - (second - first)| ≤ 1 ∧
        (minuteFloor a = a → (between : ℤ) = second - first)) ∧
    ∀ (target : Instant) (count : ℤ) (tail : List Instant), chinaDate target = day →
      calendar.completedLegalMinuteTail target count = .ok tail →
      LastLegalMinutes (calendar.continuousSessions day) target count.toNat tail := by
  refine ⟨fun a b hab ha hb hina hinb => ?_, fun target count tail hday hok =>
    completedLegalMinuteTail_ok calendar h hday hok⟩
  have hmono := continuousTime_mono hab (calendar.continuousSessions day)
  have hfloor := Nat.div_le_div_right (c := minutes 1) hmono
  obtain ⟨hlow, hhigh⟩ := div_sub_div_bounds minutes_pos hmono
  refine ⟨_, _, _, marketMinutesBetween_eq calendar h hab ha hb,
    marketMinuteIndex_eq calendar h ha hina, marketMinuteIndex_eq calendar h hb hinb, hfloor,
    ?_, fun hwhole => ?_⟩
  · rw [abs_le]
    omega
  · rw [div_sub_div_of_dvd (dvd_continuousTime h ((minuteFloor_eq_iff a).mp hwhole)),
      Nat.cast_sub hfloor]

/-- A trading day with a morning and an afternoon session. -/
def sampleTradingDay : TradingCalendar := fun day =>
  if day = 738000 then
    some [⟨"CONTINUOUS_AM", minutes (738000 * 1440 + 90), minutes (738000 * 1440 + 210)⟩,
      ⟨"CONTINUOUS_PM", minutes (738000 * 1440 + 300), minutes (738000 * 1440 + 420)⟩]
  else none

/-- The minutes of a day with a lunch break. -/
theorem sampleTradingDay_minutes :
    (∃ between first second : ℕ,
      sampleTradingDay.marketMinutesBetween (minutes (738000 * 1440 + 200) + 30000000)
        (minutes (738000 * 1440 + 310)) = .ok between ∧
      sampleTradingDay.marketMinuteIndex (minutes (738000 * 1440 + 200) + 30000000) = some first ∧
      sampleTradingDay.marketMinuteIndex (minutes (738000 * 1440 + 310)) = some second ∧
      first ≤ second ∧ |(between : ℤ) - (second - first)| ≤ 1) ∧
    LastLegalMinutes (sampleTradingDay.continuousSessions 738000) (minutes (738000 * 1440 + 301)) 3
      [minutes (738000 * 1440 + 209), minutes (738000 * 1440 + 210),
        minutes (738000 * 1440 + 301)] := by
  have hday : WholeMinuteSessions (sampleTradingDay.continuousSessions 738000) :=
    ⟨by decide, by decide, by decide⟩
  obtain ⟨hpairs, htails⟩ := legal_minutes_consistent sampleTradingDay 738000 hday
  refine ⟨?_, htails _ 3 _ (by decide) (by decide)⟩
  obtain ⟨between, first, second, hbetween, hfirst, hsecond, hle, habs, -⟩ :=
    hpairs (minutes (738000 * 1440 + 200) + 30000000) (minutes (738000 * 1440 + 310))
      (by decide) (by decide) (by decide) ⟨_, List.mem_cons_self, by decide⟩
      ⟨_, List.mem_cons_of_mem _ List.mem_cons_self, by decide⟩
  exact ⟨between, first, second, hbetween, hfirst, hsecond, hle, habs⟩

end MarketMonitor
