import Mathlib.Data.List.Lex
import Mathlib.Data.String.Basic
import MarketMonitor.Persistence.Instants

/-!
# The order of instants as text

Times are stored as text and compared as text. Every field of the text has a fixed width and
its most significant digit first, and the fields follow one another from the year down to the
microsecond, so that the order of the texts is the one of the instants
(`formatRfc3339_lt_iff`). Parsing gives back the instant that was formatted
(`parseRfc3339_formatRfc3339`), whatever offset it was given with.
-/

namespace MarketMonitor

/-! ## Aware datetimes -/

/-- A `datetime` with a time zone : its own fields as microseconds since 0001-01-01T00:00,
and its offset from UTC in microseconds. -/
structure AwareDatetime where
  wall : Instant
  offset : ℤ
  wall_lt : wall < maxInstant
  offset_lt : offset.natAbs < microsPerDay

/-- The microseconds from 0001-01-01T00:00 in UTC. -/
def AwareDatetime.utcMicros (value : AwareDatetime) : ℤ := value.wall - value.offset

/-- Whether the year is between 1 and 9999 in UTC. -/
def AwareDatetime.InCalendar (value : AwareDatetime) : Prop :=
  0 ≤ value.utcMicros ∧ value.utcMicros < maxInstant

instance (value : AwareDatetime) : Decidable value.InCalendar :=
  inferInstanceAs (Decidable (_ ∧ _))

/-- `value.astimezone(UTC)`, unless it leaves the calendar. -/
def AwareDatetime.toUtc (value : AwareDatetime) : Option Instant :=
  if value.InCalendar then some value.utcMicros.toNat else none

/-- `format_rfc3339(value)` -/
def AwareDatetime.formatRfc3339 (value : AwareDatetime) : Option String :=
  value.toUtc.map MarketMonitor.formatRfc3339

/-! ## Parsing -/

/-- A field of `k` digits. -/
def takeDigits (k : ℕ) (text : List Char) : Option (ℕ × List Char) :=
  if (text.take k).length = k ∧ (text.take k).all Char.isDigit then
    some (decimalNumber (text.take k), text.drop k)
  else none

/-- A separator. -/
def takeChar (c : Char) : List Char → Option (List Char)
  | [] => none
  | d :: text => if d = c then some text else none

/-- The fraction of a second, of which six digits count. -/
def takeFraction : List Char → Option (ℕ × List Char)
  | [] => some (0, [])
  | c :: text =>
    if c = '.' ∨ c = ',' then
      let digits := text.takeWhile Char.isDigit
      if digits = [] then none
      else some (decimalNumber ((digits ++ List.replicate 6 '0').take 6), text.drop digits.length)
    else some (0, c :: text)

/-- The offset from UTC, if any, in microseconds. -/
def takeOffset : List Char → Option (Option ℤ)
  | [] => some none
  | sign :: text => do
    let (hours, text) ← takeDigits 2 text
    let text ← takeChar ':' text
    let (minute, text) ← takeDigits 2 text
    let offset : ℤ := ((hours * 60 + minute) * 60 * microsPerSecond : ℕ)
    if text = [] ∧ hours ≤ 23 ∧ minute ≤ 59 then
      if sign = '+' then some (some offset)
      else if sign = '-' then some (some (-offset))
      else none
    else none

/-- `datetime.fromisoformat(text)`, of a date and a time to the second in the extended
format. -/
def fromIsoFormat (text : List Char) : Option (Instant × Option ℤ) := do
  let (year, text) ← takeDigits 4 text
  let text ← takeChar '-' text
  let (month, text) ← takeDigits 2 text
  let text ← takeChar '-' text
  let (day, text) ← takeDigits 2 text
  let text ← text.tail?
  let (hours, text) ← takeDigits 2 text
  let text ← takeChar ':' text
  let (minute, text) ← takeDigits 2 text
  let text ← takeChar ':' text
  let (seconds, text) ← takeDigits 2 text
  let (micros, text) ← takeFraction text
  let offset ← takeOffset text
  -- A date is valid when the calendar has it.
  if civil (ordinal year month day) = (year, month, day) ∧ year ≤ 9999 ∧ hours ≤ 23 ∧
      minute ≤ 59 ∧ seconds ≤ 59 then
    some (ordinal year month day * microsPerDay +
      ((hours * 60 + minute) * 60 + seconds) * microsPerSecond + micros, offset)
  else none

/-- `text.replace("Z", "+00:00")` -/
def replaceZulu (text : List Char) : List Char :=
  text.flatMap fun c => if c = 'Z' then ['+', '0', '0', ':', '0', '0'] else [c]

/-- `parse_rfc3339(value)` -/
def parseRfc3339 (value : String) : Except Exn Instant :=
  match fromIsoFormat (replaceZulu value.toList) with
  | none => .error (valueError "Invalid isoformat string")
  | some (_, none) => .error (valueError "RFC3339 value must include a timezone")
  | some (wall, some offset) =>
    let utc : ℤ := wall - offset
    if 0 ≤ utc ∧ utc < maxInstant then .ok utc.toNat
    else .error (valueError "date value out of range")

example : parseRfc3339 "2025-12-31T10:30:45.000001+08:00" = .ok 63902745045000001 := by
  decide +kernel

/-! ## Texts of fixed width -/

/-- Texts whose first parts are equally long are compared by parts. -/
theorem append_lt_append_iff {l l' m m' : List Char} (h : l.length = l'.length) :
    l ++ m < l' ++ m' ↔ l < l' ∨ (l = l' ∧ m < m') := by
  induction l generalizing l' with
  | nil =>
    obtain rfl := List.length_eq_zero_iff.mp h.symm
    simp
  | cons c l ih =>
    obtain ⟨d, l', rfl⟩ := List.exists_cons_of_length_eq_add_one h.symm
    rw [List.cons_append, List.cons_append, List.cons_lt_cons_iff, List.cons_lt_cons_iff,
      ih (Nat.succ.inj h), List.cons.injEq]
    tauto

theorem digitChar_lt_iff : ∀ m < 10, ∀ n < 10, Nat.digitChar m < Nat.digitChar n ↔ m < n := by
  decide

/-- Padded numbers are ordered as their texts. -/
theorem zeroPad_lt_iff {k m n : ℕ} (hm : m < 10 ^ k) (hn : n < 10 ^ k) :
    zeroPad k m < zeroPad k n ↔ m < n := by
  induction k generalizing m n with
  | zero =>
    obtain rfl : m = 0 := by omega
    obtain rfl : n = 0 := by omega
    exact iff_of_false (List.lt_irrefl _) (lt_irrefl 0)
  | succ k ih =>
    have hdigit := digitChar_lt_iff (m % 10) (by omega) (n % 10) (by omega)
    rw [zeroPad, zeroPad, append_lt_append_iff (by rw [length_zeroPad, length_zeroPad]),
      ih (by omega) (by omega), List.cons_lt_cons_iff, hdigit]
    have heq : zeroPad k (m / 10) = zeroPad k (n / 10) ↔ m / 10 = n / 10 :=
      ⟨zeroPad_inj (by omega) (by omega), fun h => by rw [h]⟩
    rw [heq]
    simp only [List.not_lt_nil, and_false, or_false]
    omega

/-- The field that comes first decides, unless it is the same. -/
theorem append_zeroPad_lt_iff {k m n : ℕ} {l l' : List Char} (hm : m < 10 ^ k) (hn : n < 10 ^ k) :
    zeroPad k m ++ l < zeroPad k n ++ l' ↔ m < n ∨ (m = n ∧ l < l') := by
  rw [append_lt_append_iff (by rw [length_zeroPad, length_zeroPad]), zeroPad_lt_iff hm hn]
  refine or_congr_right (and_congr_left' ⟨zeroPad_inj hm hn, fun h => by rw [h]⟩)

theorem cons_lt_cons_same {c : Char} {l l' : List Char} : c :: l < c :: l' ↔ l < l' := by
  simp

/-! ## Dates -/

/-- The days before the year that follows `y` years. -/
def yearStart (y : ℕ) : ℕ := y * 365 + y / 4 - y / 100 + y / 400

/-- Whether the year that follows `y` years is a leap year. -/
def leapAfter (y : ℕ) : Bool :=
  decide ((y + 1) % 4 = 0 ∧ ((y + 1) % 100 ≠ 0 ∨ (y + 1) % 400 = 0))

section Cycles

variable {a b c e : ℕ} (hb : b < 4) (hc : c < 25) (he : e < 4)

include hb hc he

theorem yearStart_cycle : yearStart (a * 400 + b * 100 + c * 4 + e) =
    a * 146097 + b * 36524 + c * 1461 + e * 365 := by
  have h4 : (a * 400 + b * 100 + c * 4 + e) / 4 = a * 100 + b * 25 + c := by omega
  have h100 : (a * 400 + b * 100 + c * 4 + e) / 100 = a * 4 + b := by omega
  have h400 : (a * 400 + b * 100 + c * 4 + e) / 400 = a := by omega
  rw [yearStart, h4, h100, h400]
  omega

theorem leapAfter_cycle : leapAfter (a * 400 + b * 100 + c * 4 + e) =
    decide (e = 3 ∧ (c ≠ 24 ∨ b = 3)) :=
  decide_eq_decide.mpr (leap_iff hb hc he)

end Cycles

/-- The days of a year. -/
theorem yearStart_succ (y : ℕ) :
    yearStart (y + 1) = yearStart y + 365 + if leapAfter y then 1 else 0 := by
  obtain ⟨a, b, c, e, hb, hc, he, rfl⟩ : ∃ a b c e, b < 4 ∧ c < 25 ∧ e < 4 ∧
      y = a * 400 + b * 100 + c * 4 + e :=
    ⟨y / 400, y % 400 / 100, y % 100 / 4, y % 4, by omega, by omega, by omega, by omega⟩
  rw [leapAfter_cycle hb hc he, yearStart_cycle hb hc he]
  -- The next year is in the same four years, or begins four years, a century or a cycle.
  rcases Nat.lt_or_ge e 3 with hlt | hge
  · rw [add_assoc, yearStart_cycle (e := e + 1) hb hc (by omega)]
    simp only [decide_eq_true_eq]
    rw [if_neg (by omega)]
    omega
  obtain rfl : e = 3 := by omega
  simp only [true_and, decide_eq_true_eq]
  rcases Nat.lt_or_ge c 24 with hlt | hge
  · have hnext := yearStart_cycle (a := a) (c := c + 1) (e := 0) hb (by omega) (by omega)
    rw [if_pos (by omega), show a * 400 + b * 100 + c * 4 + 3 + 1 =
      a * 400 + b * 100 + (c + 1) * 4 + 0 by omega, hnext]
    omega
  obtain rfl : c = 24 := by omega
  rcases Nat.lt_or_ge b 3 with hlt | hge
  · have hnext := yearStart_cycle (a := a) (b := b + 1) (c := 0) (e := 0) (by omega) (by omega)
      (by omega)
    rw [if_neg (by omega), show a * 400 + b * 100 + 24 * 4 + 3 + 1 =
      a * 400 + (b + 1) * 100 + 0 * 4 + 0 by omega, hnext]
    omega
  obtain rfl : b = 3 := by omega
  have hnext := yearStart_cycle (a := a + 1) (b := 0) (c := 0) (e := 0) (by omega) (by omega)
    (by omega)
  rw [if_pos (by omega), show a * 400 + 3 * 100 + 24 * 4 + 3 + 1 =
    (a + 1) * 400 + 0 * 100 + 0 * 4 + 0 by omega, hnext]
  omega

theorem yearStart_mono : Monotone yearStart :=
  monotone_nat_of_le_succ fun y => by
    rw [yearStart_succ]
    omega

set_option maxRecDepth 20000 in
/-- A date is a day of its year. -/
theorem exists_dayOfYear (date : ℕ) : ∃ y n, civil date = (y + 1, monthDay (leapAfter y) n) ∧
    date = yearStart y + n ∧ date < yearStart (y + 1) ∧ n < 366 := by
  obtain ⟨a, b, c, e, d, ⟨hdate, hday, hfour, hcentury, hcycle⟩, hcivil⟩ := exists_cyclePlace date
  rw [hcivil]
  split_ifs with h
  · -- The last day of a leap year, in either of the cycles that end with one.
    have hplace : d = 0 ∧ (e = 4 ∧ b < 4 ∧ c < 24 ∨ b = 4 ∧ c = 0 ∧ e = 0) := by omega
    have hlast : monthDay true 365 = (12, 31) := by decide
    have hfinal : ∀ {b c : ℕ}, b < 4 → c < 25 → (c ≠ 24 ∨ b = 3) →
        date = a * 146097 + b * 36524 + c * 1461 + 3 * 365 + 365 →
        ∃ y n, (a * 400 + b * 100 + c * 4 + 4, 12, 31) = (y + 1, monthDay (leapAfter y) n) ∧
          date = yearStart y + n ∧ date < yearStart (y + 1) ∧ n < 366 := by
      intro b c hb hc hcentury hdate
      have hleap := (leapAfter_cycle (a := a) hb hc (show 3 < 4 by omega)).trans
        (decide_eq_true ⟨rfl, hcentury⟩)
      have hstart := yearStart_cycle (a := a) hb hc (show 3 < 4 by omega)
      refine ⟨a * 400 + b * 100 + c * 4 + 3, 365, ?_, by omega, ?_, by omega⟩
      · rw [hleap, hlast]
      · rw [yearStart_succ, hleap, if_pos rfl]
        omega
    rcases hplace with ⟨rfl, ⟨rfl, hb, hc⟩ | ⟨rfl, rfl, rfl⟩⟩
    · exact hfinal hb (by omega) (by omega) (by omega)
    · exact hfinal (b := 3) (c := 24) (by omega) (by omega) (by omega) (by omega)
  · have hlt : b < 4 ∧ c < 25 ∧ e < 4 := by omega
    refine ⟨a * 400 + b * 100 + c * 4 + e, d, ?_, ?_, ?_, by omega⟩
    · rw [leapAfter_cycle hlt.1 hlt.2.1 hlt.2.2]
    · rw [yearStart_cycle hlt.1 hlt.2.1 hlt.2.2, hdate]
    · rw [yearStart_succ, yearStart_cycle hlt.1 hlt.2.1 hlt.2.2]
      omega

/-- The order of month and day in one number. -/
def monthDayCode (leap : Bool) (n : ℕ) : ℕ := (monthDay leap n).1 * 100 + (monthDay leap n).2

theorem monthDayCode_succ : ∀ leap : Bool, ∀ n < 365,
    monthDayCode leap n < monthDayCode leap (n + 1) := by
  decide +kernel

theorem monthDayCode_lt {leap : Bool} {n n' : ℕ} (h : n < n') (hn' : n' < 366) :
    monthDayCode leap n < monthDayCode leap n' := by
  induction n', h using Nat.le_induction with
  | base => exact monthDayCode_succ leap n (by omega)
  | succ n' _ ih => exact (ih (by omega)).trans (monthDayCode_succ leap n' (by omega))

/-- A later date has a later year, month or day. -/
theorem civil_lt_of_lt {date date' : ℕ} (h : date < date') :
    (civil date).1 < (civil date').1 ∨ ((civil date).1 = (civil date').1 ∧
      ((civil date).2.1 < (civil date').2.1 ∨ ((civil date).2.1 = (civil date').2.1 ∧
        (civil date).2.2 < (civil date').2.2))) := by
  obtain ⟨y, n, hcivil, hdate, hend, hn⟩ := exists_dayOfYear date
  obtain ⟨y', n', hcivil', hdate', hend', hn'⟩ := exists_dayOfYear date'
  rw [hcivil, hcivil']
  rcases lt_trichotomy y y' with hlt | rfl | hgt
  · exact .inl (Nat.succ_lt_succ hlt)
  · have hcode := @monthDayCode_lt (leapAfter y) _ _ (show n < n' by omega) hn'
    have hday := (monthDay_lt (leapAfter y) n hn).2
    have hday' := (monthDay_lt (leapAfter y) n' hn').2
    unfold monthDayCode at hcode
    refine .inr ⟨rfl, ?_⟩
    dsimp only
    omega
  · have := yearStart_mono (show y' + 1 ≤ y from hgt)
    omega

/-! ## Texts of instants -/

theorem dayFields_lt {t t' : ℕ} (h : t < t') : t / microsPerDay < t' / microsPerDay ∨
    (t / microsPerDay = t' / microsPerDay ∧ t % microsPerDay < t' % microsPerDay) := by
  refine (Nat.div_le_div_right h.le).lt_or_eq.imp_right fun hdiv => ⟨hdiv, ?_⟩
  have heq := Nat.div_add_mod t microsPerDay
  have heq' := Nat.div_add_mod t' microsPerDay
  rw [hdiv] at heq
  omega

/-- The fields of the time of day, of which the first that differs decides. -/
theorem timeOfDay_lt {u u' : ℕ} (h : u < u') :
    u / 3600000000 < u' / 3600000000 ∨ (u / 3600000000 = u' / 3600000000 ∧
      (u / 60000000 % 60 < u' / 60000000 % 60 ∨ (u / 60000000 % 60 = u' / 60000000 % 60 ∧
        (u / 1000000 % 60 < u' / 1000000 % 60 ∨ (u / 1000000 % 60 = u' / 1000000 % 60 ∧
          u % 1000000 < u' % 1000000))))) := by
  omega

/-- A later time has a greater text. -/
theorem formatRfc3339_toList_lt {t t' : ℕ} (ht' : t' < maxInstant) (h : t < t') :
    (formatRfc3339 t).toList < (formatRfc3339 t').toList := by
  have ht : t < maxInstant := h.trans ht'
  rw [maxInstant, Nat.mul_comm] at ht ht'
  have hdate : t / microsPerDay < 3652059 := Nat.div_lt_of_lt_mul ht
  have hdate' : t' / microsPerDay < 3652059 := Nat.div_lt_of_lt_mul ht'
  obtain ⟨hyear, hmonth, hday⟩ := civil_lt hdate
  obtain ⟨hyear', hmonth', hday'⟩ := civil_lt hdate'
  have hfields := dayFields_lt h
  have hmicros : t % microsPerDay < 86400000000 := Nat.mod_lt t (by decide)
  have hmicros' : t' % microsPerDay < 86400000000 := Nat.mod_lt t' (by decide)
  unfold formatRfc3339
  simp only [String.toList_ofList, List.append_assoc, List.cons_append]
  generalize t % microsPerDay = u at *
  generalize t' % microsPerDay = u' at *
  unfold microsPerSecond
  rw [append_zeroPad_lt_iff hyear hyear', cons_lt_cons_same,
    append_zeroPad_lt_iff hmonth hmonth', cons_lt_cons_same,
    append_zeroPad_lt_iff hday hday', cons_lt_cons_same,
    append_zeroPad_lt_iff (by omega) (by omega), cons_lt_cons_same,
    append_zeroPad_lt_iff (by omega) (by omega), cons_lt_cons_same,
    append_zeroPad_lt_iff (by omega) (by omega), cons_lt_cons_same,
    append_zeroPad_lt_iff (by omega) (by omega)]
  rcases hfields with hdate | ⟨hsame, htime⟩
  · rcases civil_lt_of_lt hdate with hlt | ⟨heq, hlt | ⟨heq', hlt⟩⟩
    · exact .inl hlt
    · exact .inr ⟨heq, .inl hlt⟩
    · exact .inr ⟨heq, .inr ⟨heq', .inl hlt⟩⟩
  · rw [hsame]
    refine .inr ⟨rfl, .inr ⟨rfl, .inr ⟨rfl, ?_⟩⟩⟩
    have := timeOfDay_lt htime
    simp only [Nat.div_div_eq_div_mul]
    omega

/-- The order of the texts is the one of the instants. -/
theorem formatRfc3339_lt_iff {t t' : ℕ} (ht : t < maxInstant) (ht' : t' < maxInstant) :
    formatRfc3339 t < formatRfc3339 t' ↔ t < t' := by
  rw [String.lt_iff_toList_lt]
  refine ⟨fun h => ?_, formatRfc3339_toList_lt ht'⟩
  rcases lt_trichotomy t t' with hlt | rfl | hgt
  · exact hlt
  · exact absurd h (List.lt_irrefl _)
  · exact absurd h (List.lt_asymm (formatRfc3339_toList_lt ht hgt))

/-! ## Parsing a formatted instant -/

theorem digitChar_isDigit : ∀ n < 10, (Nat.digitChar n).isDigit = true ∧
    (Nat.digitChar n).toNat - '0'.toNat = n ∧ Nat.digitChar n ≠ 'Z' := by
  decide

theorem isDigit_of_mem_zeroPad {k n : ℕ} {c : Char} (h : c ∈ zeroPad k n) :
    c.isDigit = true ∧ c ≠ 'Z' := by
  induction k generalizing n with
  | zero => cases h
  | succ k ih =>
    rw [zeroPad, List.mem_append, List.mem_singleton] at h
    rcases h with h | rfl
    · exact ih h
    · have hdigit := digitChar_isDigit (n % 10) (Nat.mod_lt n (by decide))
      exact ⟨hdigit.1, hdigit.2.2⟩

/-- A padded number is read back. -/
theorem decimalNumber_zeroPad {k n : ℕ} (h : n < 10 ^ k) : decimalNumber (zeroPad k n) = n := by
  induction k generalizing n with
  | zero =>
    obtain rfl : n = 0 := by omega
    rfl
  | succ k ih =>
    have hinit := ih (n := n / 10) (by omega)
    have hdigit := (digitChar_isDigit (n % 10) (Nat.mod_lt n (by decide))).2.1
    unfold decimalNumber at hinit ⊢
    rw [zeroPad, List.foldl_append, hinit, List.foldl_cons, List.foldl_nil, hdigit]
    omega

theorem takeDigits_zeroPad {k n : ℕ} (h : n < 10 ^ k) (text : List Char) :
    takeDigits k (zeroPad k n ++ text) = some (n, text) := by
  have htake : (zeroPad k n ++ text).take k = zeroPad k n :=
    List.take_left' (length_zeroPad k n)
  have hdrop : (zeroPad k n ++ text).drop k = text := List.drop_left' (length_zeroPad k n)
  have hall : (zeroPad k n).all Char.isDigit = true :=
    List.all_eq_true.mpr fun c hc => (isDigit_of_mem_zeroPad hc).1
  rw [takeDigits, htake, hdrop, if_pos ⟨length_zeroPad k n, hall⟩, decimalNumber_zeroPad h]

theorem takeChar_cons (c : Char) (text : List Char) : takeChar c (c :: text) = some text :=
  if_pos rfl

/-- The fraction has six digits, and the offset follows it. -/
theorem takeFraction_zeroPad {n : ℕ} (h : n < 1000000) (text : List Char) :
    takeFraction ('.' :: (zeroPad 6 n ++ '+' :: text)) = some (n, '+' :: text) := by
  have hdigits : (zeroPad 6 n ++ '+' :: text).takeWhile Char.isDigit = zeroPad 6 n := by
    rw [List.takeWhile_append_of_pos fun c hc => (isDigit_of_mem_zeroPad hc).1,
      List.takeWhile_cons_of_neg (by decide), List.append_nil]
  have hne : zeroPad 6 n ≠ [] := List.ne_nil_of_length_eq_add_one (length_zeroPad 6 n)
  rw [takeFraction, if_pos (.inl rfl)]
  simp only [hdigits, if_neg hne]
  rw [List.take_left' (length_zeroPad 6 n), decimalNumber_zeroPad h,
    List.drop_left' rfl]

@[simp] theorem replaceZulu_nil : replaceZulu [] = [] := rfl

@[simp] theorem replaceZulu_append (text text' : List Char) :
    replaceZulu (text ++ text') = replaceZulu text ++ replaceZulu text' :=
  List.flatMap_append

@[simp] theorem replaceZulu_cons (c : Char) (text : List Char) :
    replaceZulu (c :: text) =
      (if c = 'Z' then ['+', '0', '0', ':', '0', '0'] else [c]) ++ replaceZulu text :=
  List.flatMap_cons

@[simp] theorem replaceZulu_zeroPad (k n : ℕ) : replaceZulu (zeroPad k n) = zeroPad k n := by
  have hkeep : ∀ l : List Char, (∀ c ∈ l, c ≠ 'Z') → replaceZulu l = l := by
    intro l
    induction l with
    | nil => exact fun _ => rfl
    | cons c l ih =>
      intro h
      rw [replaceZulu_cons, if_neg (h c List.mem_cons_self),
        ih fun d hd => h d (List.mem_cons_of_mem c hd), List.singleton_append]
  exact hkeep _ fun c hc => (isDigit_of_mem_zeroPad hc).2

/-- The text of an instant by its fields, with the offset of UTC spelt out. -/
theorem fromIsoFormat_fields {year month day hours minute seconds micros : ℕ}
    (hyear : year < 10 ^ 4) (hmonth : month < 10 ^ 2) (hday : day < 10 ^ 2) (hhours : hours < 24)
    (hminute : minute < 60) (hseconds : seconds < 60) (hmicros : micros < 1000000)
    (hdate : civil (ordinal year month day) = (year, month, day)) :
    fromIsoFormat (zeroPad 4 year ++ '-' :: (zeroPad 2 month ++ '-' :: (zeroPad 2 day ++
      'T' :: (zeroPad 2 hours ++ ':' :: (zeroPad 2 minute ++ ':' :: (zeroPad 2 seconds ++
        '.' :: (zeroPad 6 micros ++ ['+', '0', '0', ':', '0', '0']))))))) =
      some (ordinal year month day * microsPerDay +
        ((hours * 60 + minute) * 60 + seconds) * microsPerSecond + micros, some 0) := by
  have hoffset : takeOffset ['+', '0', '0', ':', '0', '0'] = some (some 0) := by decide
  have hvalid : civil (ordinal year month day) = (year, month, day) ∧ year ≤ 9999 ∧ hours ≤ 23 ∧
      minute ≤ 59 ∧ seconds ≤ 59 :=
    ⟨hdate, by omega, by omega, by omega, by omega⟩
  unfold fromIsoFormat
  simp only [takeDigits_zeroPad hyear, takeDigits_zeroPad hmonth, takeDigits_zeroPad hday,
    takeDigits_zeroPad (show hours < 10 ^ 2 by omega),
    takeDigits_zeroPad (show minute < 10 ^ 2 by omega),
    takeDigits_zeroPad (show seconds < 10 ^ 2 by omega), takeChar_cons, List.tail?_cons,
    takeFraction_zeroPad hmicros, hoffset, Option.bind_eq_bind, Option.bind_some]
  exact if_pos hvalid

theorem microsOfDay_eq (u : ℕ) :
    ((u / 1000000 / 3600 * 60 + u / 1000000 / 60 % 60) * 60 + u / 1000000 % 60) * 1000000 +
      u % 1000000 = u := by
  omega

/-- So is the text of a time. -/
theorem fromIsoFormat_format {t : ℕ} (ht : t < maxInstant) :
    fromIsoFormat (replaceZulu (formatRfc3339 t).toList) = some (t, some 0) := by
  rw [maxInstant, Nat.mul_comm] at ht
  have hdate : t / microsPerDay < 3652059 := Nat.div_lt_of_lt_mul ht
  obtain ⟨hyear, hmonth, hday⟩ := civil_lt hdate
  have hordinal := ordinal_civil (t / microsPerDay)
  have hmicros : t % microsPerDay < 86400000000 := Nat.mod_lt t (by decide)
  have hsplit := Nat.div_add_mod t microsPerDay
  unfold formatRfc3339
  simp only [String.toList_ofList, List.append_assoc, List.cons_append,
    List.nil_append, replaceZulu_append, replaceZulu_cons, replaceZulu_zeroPad, Char.reduceEq,
    reduceIte, replaceZulu_nil, List.append_nil]
  generalize t % microsPerDay = u at *
  unfold microsPerSecond
  have hsum := microsOfDay_eq u
  have hdate' := @fromIsoFormat_fields _ _ _ (u / 1000000 / 3600) (u / 1000000 / 60 % 60)
    (u / 1000000 % 60) (u % 1000000) hyear hmonth hday
    (by omega) (by omega) (by omega) (by omega) (by rw [hordinal])
  rw [hordinal] at hdate'
  unfold microsPerSecond at hdate'
  rw [hdate', add_assoc, hsum, Nat.mul_comm, hsplit]

/-- Parsing gives back the instant that was formatted. -/
theorem parseRfc3339_formatRfc3339 {t : ℕ} (ht : t < maxInstant) :
    parseRfc3339 (formatRfc3339 t) = .ok t := by
  have hrange : (0 : ℤ) ≤ (t : ℤ) - 0 ∧ (t : ℤ) - 0 < (maxInstant : ℕ) := by
    generalize maxInstant = bound at *
    omega
  rw [parseRfc3339, fromIsoFormat_format ht]
  refine (if_pos hrange).trans (congrArg Except.ok ?_)
  exact (congrArg Int.toNat (Int.sub_zero (t : ℤ))).trans (Int.toNat_natCast t)

/-! ## Aware datetimes as text -/

theorem AwareDatetime.formatRfc3339_of_inCalendar {a : AwareDatetime} (h : a.InCalendar) :
    ∃ t : ℕ, t < maxInstant ∧ a.utcMicros = t ∧
      a.formatRfc3339 = some (MarketMonitor.formatRfc3339 t) := by
  refine ⟨a.utcMicros.toNat, (Int.toNat_lt h.1).mpr h.2, (Int.toNat_of_nonneg h.1).symm, ?_⟩
  rw [AwareDatetime.formatRfc3339, AwareDatetime.toUtc, if_pos h, Option.map_some]

/-- Times of any offset order as their texts do, and a text is parsed to the time it was made
of. -/
theorem timestamps_order_as_text (a b : AwareDatetime) (ha : a.InCalendar)
    (hb : b.InCalendar) : ∃ textA textB, a.formatRfc3339 = some textA ∧
      b.formatRfc3339 = some textB ∧
      (textA < textB ↔ a.utcMicros < b.utcMicros) ∧
      (textA ≤ textB ↔ a.utcMicros ≤ b.utcMicros) ∧
      (textA = textB ↔ a.utcMicros = b.utcMicros) ∧
      (∃ t : ℕ, parseRfc3339 textA = .ok t ∧ t = a.utcMicros) := by
  obtain ⟨ta, hlta, heqa, hta⟩ := AwareDatetime.formatRfc3339_of_inCalendar ha
  obtain ⟨tb, hltb, heqb, htb⟩ := AwareDatetime.formatRfc3339_of_inCalendar hb
  have hlt := formatRfc3339_lt_iff hlta hltb
  have hgt := formatRfc3339_lt_iff hltb hlta
  have heq : formatRfc3339 ta = formatRfc3339 tb ↔ ta = tb :=
    ⟨formatRfc3339_inj hlta hltb, fun h => by rw [h]⟩
  refine ⟨_, _, hta, htb, ?_, ?_, ?_, ta, parseRfc3339_formatRfc3339 hlta, heqa.symm⟩
  · rw [hlt, heqa, heqb, Int.ofNat_lt]
  · rw [← not_lt, hgt, not_lt, heqa, heqb, Int.ofNat_le]
  · rw [heq, heqa, heqb, Int.natCast_inj]

/-- Half past two in the afternoon in Shanghai, and half past six in the morning in London one
microsecond later. -/
theorem timestamps_order_as_text_shanghai_london :
    ∃ textA textB,
      (⟨63902788245000000, 28800000000, by decide, by decide⟩ : AwareDatetime).formatRfc3339 =
        some textA ∧
      (⟨63902759445000001, 0, by decide, by decide⟩ : AwareDatetime).formatRfc3339 = some textB ∧
      textA < textB := by
  obtain ⟨textA, textB, hA, hB, hlt, -⟩ := timestamps_order_as_text
    ⟨63902788245000000, 28800000000, by decide, by decide⟩
    ⟨63902759445000001, 0, by decide, by decide⟩ (by decide) (by decide)
  exact ⟨textA, textB, hA, hB, hlt.mpr (by decide)⟩

end MarketMonitor
