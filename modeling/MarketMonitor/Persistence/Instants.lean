import MarketMonitor.Persistence.Values

/-!
# Texts of instants

The text of an instant determines it, up to the end of the year 9999
(`formatRfc3339_inj`) : an instant read from a column is the one that was written.
-/

namespace MarketMonitor

/-- The end of the year 9999, where the calendar of the program ends. -/
def maxInstant : Instant := 3652059 * microsPerDay

/-! ## Dates -/

/-- The month and the day of month of a day of a year determine it. -/
theorem dayOfYear_monthDay : ∀ leap : Bool, ∀ n < 366, (leap = false → n < 365) →
    daysBeforeMonth.getD ((monthDay leap n).1 - 1) 0 +
      (if leap ∧ 2 < (monthDay leap n).1 then 1 else 0) + ((monthDay leap n).2 - 1) = n := by
  decide +kernel

theorem monthDay_lt : ∀ leap : Bool, ∀ n < 366, (monthDay leap n).1 < 100 ∧
    (monthDay leap n).2 < 100 := by
  decide +kernel

/-- A year is a leap year when its place in its cycles says so. -/
theorem leap_iff {a b c e : ℕ} (hb : b < 4) (hc : c < 25) (he : e < 4) :
    ((a * 400 + b * 100 + c * 4 + e + 1) % 4 = 0 ∧
      ((a * 400 + b * 100 + c * 4 + e + 1) % 100 ≠ 0 ∨
        (a * 400 + b * 100 + c * 4 + e + 1) % 400 = 0)) ↔
      e = 3 ∧ (c ≠ 24 ∨ b = 3) := by
  omega

/-- The place of a date in the cycles of the calendar. -/
structure CyclePlace (date a b c e d : ℕ) : Prop where
  date_eq : date = a * 146097 + b * 36524 + c * 1461 + e * 365 + d
  day : d < 365
  fourYears : e * 365 + d < 1461
  century : c * 1461 + e * 365 + d < 36524
  cycle : b * 36524 + c * 1461 + e * 365 + d < 146097

theorem exists_cyclePlace (date : ℕ) : ∃ a b c e d, CyclePlace date a b c e d ∧
    civil date = if e = 4 ∨ b = 4 then (a * 400 + b * 100 + c * 4 + e + 1 - 1, 12, 31)
      else (a * 400 + b * 100 + c * 4 + e + 1,
        monthDay (decide (e = 3 ∧ (c ≠ 24 ∨ b = 3))) d) :=
  ⟨date / 146097, date % 146097 / 36524, date % 146097 % 36524 / 1461,
    date % 146097 % 36524 % 1461 / 365, date % 146097 % 36524 % 1461 % 365,
    ⟨by omega, by omega, by omega, by omega, by omega⟩, rfl⟩

/-- The date of a month and day in a year given by its place in the cycles. -/
theorem ordinal_succ {a b c e month day : ℕ} (hb : b < 4) (hc : c < 25) (he : e < 4) :
    ordinal (a * 400 + b * 100 + c * 4 + e + 1) month day =
      a * 146097 + b * 36524 + c * 1461 + e * 365 + daysBeforeMonth.getD (month - 1) 0 +
        (if (e = 3 ∧ (c ≠ 24 ∨ b = 3)) ∧ 2 < month then 1 else 0) + (day - 1) := by
  have h4 : (a * 400 + b * 100 + c * 4 + e) / 4 = a * 100 + b * 25 + c := by omega
  have h100 : (a * 400 + b * 100 + c * 4 + e) / 100 = a * 4 + b := by omega
  have h400 : (a * 400 + b * 100 + c * 4 + e) / 400 = a := by omega
  simp only [ordinal, leap_iff hb hc he, Nat.add_sub_cancel, h4, h100, h400]
  change @Eq ℕ _ _
  omega

/-- The civil date determines the date. -/
theorem ordinal_civil (date : ℕ) :
    ordinal (civil date).1 (civil date).2.1 (civil date).2.2 = date := by
  obtain ⟨a, b, c, e, d, ⟨hdate, hday, hfour, hcentury, hcycle⟩, hcivil⟩ := exists_cyclePlace date
  rw [hcivil]
  split_ifs with h
  · -- The last day of a leap year, in either of the cycles that end with one.
    have hdecember : daysBeforeMonth.getD (12 - 1) 0 = 334 := rfl
    have hplace : d = 0 ∧ (e = 4 ∧ b < 4 ∧ c < 24 ∨ b = 4 ∧ c = 0 ∧ e = 0) := by omega
    rcases hplace with ⟨rfl, ⟨rfl, hb, hc⟩ | ⟨rfl, rfl, rfl⟩⟩
    · have hyear : a * 400 + b * 100 + c * 4 + 4 + 1 - 1 =
          a * 400 + b * 100 + c * 4 + 3 + 1 := by omega
      have hleap : (3 = 3 ∧ (c ≠ 24 ∨ b = 3)) ∧ 2 < 12 := by omega
      dsimp only
      rw [hyear, ordinal_succ hb (by omega) (by omega), if_pos hleap, hdecember]
      change @Eq ℕ _ _
      omega
    · have hyear : a * 400 + 4 * 100 + 0 * 4 + 0 + 1 - 1 =
          a * 400 + 3 * 100 + 24 * 4 + 3 + 1 := by omega
      dsimp only
      rw [hyear, ordinal_succ (b := 3) (c := 24) (e := 3) (by omega) (by omega) (by omega),
        if_pos (by omega), hdecember]
      change @Eq ℕ _ _
      omega
  · have hlt : b < 4 ∧ c < 25 ∧ e < 4 := by omega
    have hmonthDay := dayOfYear_monthDay (decide (e = 3 ∧ (c ≠ 24 ∨ b = 3))) d (by omega)
      fun _ => by omega
    simp only [decide_eq_true_eq] at hmonthDay
    dsimp only
    rw [ordinal_succ hlt.1 hlt.2.1 hlt.2.2]
    change @Eq ℕ _ _
    omega

theorem civil_inj {date date' : ℕ} (h : civil date = civil date') : date = date' := by
  rw [← ordinal_civil date, h, ordinal_civil]

set_option maxRecDepth 20000 in
theorem CyclePlace.year_lt {date a b c e d : ℕ} (h : CyclePlace date a b c e d)
    (hdate : date < 3652059) :
    a * 400 + b * 100 + c * 4 + e < if e = 4 ∨ b = 4 then 10000 else 9999 := by
  obtain ⟨hplace, hday, hfour, hcentury, hcycle⟩ := h
  split_ifs with hlast
  · omega
  · omega

/-- The fields of a civil date fit their columns. -/
theorem civil_lt {date : ℕ} (h : date < 3652059) :
    (civil date).1 < 10000 ∧ (civil date).2.1 < 100 ∧ (civil date).2.2 < 100 := by
  obtain ⟨a, b, c, e, d, hplace, hcivil⟩ := exists_cyclePlace date
  have hyear := hplace.year_lt h
  rw [hcivil]
  split_ifs with hlast
  · rw [if_pos hlast] at hyear
    exact ⟨hyear, by simp, by simp⟩
  · rw [if_neg hlast] at hyear
    exact ⟨Nat.succ_lt_succ hyear, monthDay_lt (decide (e = 3 ∧ (c ≠ 24 ∨ b = 3))) d
      (hplace.day.trans (by decide))⟩

/-! ## Texts -/

theorem length_zeroPad (k n : ℕ) : (zeroPad k n).length = k := by
  induction k generalizing n with
  | zero => rfl
  | succ k ih => rw [zeroPad, List.length_append, ih, List.length_singleton]

theorem digitChar_inj : ∀ m < 10, ∀ n < 10, Nat.digitChar m = Nat.digitChar n → m = n := by
  decide

theorem zeroPad_inj {k m n : ℕ} (hm : m < 10 ^ k) (hn : n < 10 ^ k)
    (h : zeroPad k m = zeroPad k n) : m = n := by
  induction k generalizing m n with
  | zero => omega
  | succ k ih =>
    obtain ⟨hinit, hlast⟩ := List.append_inj h (by rw [length_zeroPad, length_zeroPad])
    have hdiv : m / 10 = n / 10 := ih (by omega) (by omega) hinit
    have hmod : m % 10 = n % 10 :=
      digitChar_inj _ (by omega) _ (by omega) (List.head_eq_of_cons_eq hlast)
    omega

/-- The fields of a text of fixed width. -/
theorem append_zeroPad_inj {k m n : ℕ} {l l' : List Char} (hm : m < 10 ^ k) (hn : n < 10 ^ k)
    (h : zeroPad k m ++ l = zeroPad k n ++ l') : m = n ∧ l = l' := by
  obtain ⟨hfield, hrest⟩ := List.append_inj h (by rw [length_zeroPad, length_zeroPad])
  exact ⟨zeroPad_inj hm hn hfield, hrest⟩

/-- The text of an instant determines it. -/
theorem formatRfc3339_inj {t t' : ℕ} (ht : t < maxInstant) (ht' : t' < maxInstant)
    (h : formatRfc3339 t = formatRfc3339 t') : t = t' := by
  rw [maxInstant, Nat.mul_comm] at ht ht'
  have hdate : t / microsPerDay < 3652059 := Nat.div_lt_of_lt_mul ht
  have hdate' : t' / microsPerDay < 3652059 := Nat.div_lt_of_lt_mul ht'
  obtain ⟨hyear, hmonth, hday⟩ := civil_lt hdate
  obtain ⟨hyear', hmonth', hday'⟩ := civil_lt hdate'
  unfold formatRfc3339 at h
  rw [String.ofList_inj] at h
  simp only [List.append_assoc, List.cons_append] at h
  obtain ⟨h₁, h⟩ := append_zeroPad_inj hyear hyear' h
  obtain ⟨h₂, h⟩ := append_zeroPad_inj hmonth hmonth' (List.tail_eq_of_cons_eq h)
  obtain ⟨h₃, h⟩ := append_zeroPad_inj hday hday' (List.tail_eq_of_cons_eq h)
  have hcivil := civil_inj (Prod.ext h₁ (Prod.ext h₂ h₃))
  unfold microsPerDay microsPerSecond at *
  obtain ⟨h₄, h⟩ := append_zeroPad_inj (by omega) (by omega) (List.tail_eq_of_cons_eq h)
  obtain ⟨h₅, h⟩ := append_zeroPad_inj (by omega) (by omega) (List.tail_eq_of_cons_eq h)
  obtain ⟨h₆, h⟩ := append_zeroPad_inj (by omega) (by omega) (List.tail_eq_of_cons_eq h)
  obtain ⟨h₇, -⟩ := append_zeroPad_inj (by omega) (by omega) (List.tail_eq_of_cons_eq h)
  omega

theorem length_formatRfc3339 (t : ℕ) : (formatRfc3339 t).toList.length = 27 := by
  simp [formatRfc3339, length_zeroPad]

theorem toDigits_inj {m n : ℕ} (h : Nat.toDigits 10 m = Nat.toDigits 10 n) : m = n := by
  rw [← Nat.ofDigitChars_ten_toDigits (n := m), h, Nat.ofDigitChars_ten_toDigits]

end MarketMonitor
