import Mathlib.Data.Int.Log
import Mathlib.Data.Rat.Floor
import Mathlib.Data.Int.ConditionallyCompleteOrder
import MarketMonitor.Library.Decimal

/-!
# Rounding to 28 digits

The operations of `Decimal` return the exact result rounded once (`toRat_add`, `toRat_mul`,
`toRat_div`), by a function `rounded` of the rational numbers. What a computation keeps of
the exact one follows from four facts about it : it is monotone, odd, the identity on
numbers of 28 digits, and off by a relative error of at most five units of the 28th place.
-/

namespace Decimal

/-! ## Nearest integers -/

/-- The nearest integer, the even one of two. -/
def roundEven (q : ℚ) : ℤ :=
  if 1 / 2 < Int.fract q ∨ (Int.fract q = 1 / 2 ∧ ⌊q⌋ % 2 = 1) then ⌊q⌋ + 1 else ⌊q⌋

/-- An integer nearest to a number, and even when there are two. -/
def IsNearest (n : ℤ) (q : ℚ) : Prop :=
  |(n : ℚ) - q| < 1 / 2 ∨ (|(n : ℚ) - q| = 1 / 2 ∧ n % 2 = 0)

/-- Rounding to the nearest integer, and half to even. -/
theorem roundEven_isNearest (q : ℚ) : IsNearest (roundEven q) q := by
  have hfloor := Int.floor_add_fract q
  have hnonneg := Int.fract_nonneg q
  have hlt := Int.fract_lt_one q
  rw [IsNearest, abs_lt]
  unfold roundEven
  split
  · rename_i h
    rcases h with hup | ⟨htie, hodd⟩
    · left
      push_cast
      constructor <;> linarith
    · refine .inr ⟨?_, by omega⟩
      push_cast
      rw [abs_of_nonneg] <;> linarith
  · rename_i h
    rw [not_or, not_and, not_lt] at h
    rcases h.1.lt_or_eq with hdown | htie
    · left
      constructor <;> linarith
    · refine .inr ⟨?_, by have := h.2 htie; omega⟩
      rw [abs_of_nonpos] <;> linarith

/-- There is one such integer. -/
theorem IsNearest.eq {m n : ℤ} {q : ℚ} (hm : IsNearest m q) (hn : IsNearest n q) : m = n := by
  have hdist (k : ℤ) (hk : IsNearest k q) : -(1 / 2) ≤ (k : ℚ) - q ∧ (k : ℚ) - q ≤ 1 / 2 :=
    abs_le.mp (hk.elim le_of_lt fun h => h.1.le)
  obtain ⟨hm₁, hm₂⟩ := hdist m hm
  obtain ⟨hn₁, hn₂⟩ := hdist n hn
  by_contra hne
  -- Two nearest integers lie half a unit on either side, and both are even.
  have hapart : m = n + 1 ∨ n = m + 1 := by
    have hmn : (m : ℚ) ≤ n + 1 := by linarith
    have hnm : (n : ℚ) ≤ m + 1 := by linarith
    have hmn : m ≤ n + 1 := by exact_mod_cast hmn
    have hnm : n ≤ m + 1 := by exact_mod_cast hnm
    omega
  have htie (k : ℤ) (hk : IsNearest k q) (h : |(k : ℚ) - q| = 1 / 2) : k % 2 = 0 :=
    hk.elim (fun hlt => absurd h hlt.ne) And.right
  rcases hapart with rfl | rfl
  · push_cast at hm₁ hm₂
    have hm₀ := htie _ hm (by push_cast; rw [abs_of_nonneg] <;> linarith)
    have hn₀ := htie _ hn (by rw [abs_of_nonpos] <;> linarith)
    omega
  · push_cast at hn₁ hn₂
    have hm₀ := htie _ hm (by rw [abs_of_nonpos] <;> linarith)
    have hn₀ := htie _ hn (by push_cast; rw [abs_of_nonneg] <;> linarith)
    omega

theorem roundEven_eq {n : ℤ} {q : ℚ} (h : IsNearest n q) : roundEven q = n :=
  (roundEven_isNearest q).eq h

theorem abs_roundEven_sub_le (q : ℚ) : |(roundEven q : ℚ) - q| ≤ 1 / 2 :=
  (roundEven_isNearest q).elim le_of_lt fun h => h.1.le

theorem roundEven_intCast (n : ℤ) : roundEven n = n :=
  roundEven_eq (.inl (by norm_num))

theorem roundEven_neg (q : ℚ) : roundEven (-q) = -roundEven q := by
  refine roundEven_eq ?_
  have habs : |((-roundEven q : ℤ) : ℚ) - -q| = |(roundEven q : ℚ) - q| := by
    rw [← abs_neg]
    congr 1
    push_cast
    ring
  rw [IsNearest, habs]
  exact (roundEven_isNearest q).imp_right fun h => ⟨h.1, by omega⟩

theorem roundEven_mono : Monotone roundEven := by
  intro p q hpq
  by_contra hlt
  have hp := abs_le.mp (abs_roundEven_sub_le p)
  have hq := abs_le.mp (abs_roundEven_sub_le q)
  have hsucc : roundEven q + 1 ≤ roundEven p := by omega
  have hsucc : (roundEven q : ℚ) + 1 ≤ roundEven p := by exact_mod_cast hsucc
  obtain rfl : p = q := by linarith
  exact hlt le_rfl

/-- Between two neighbouring halves the nearest integer is one. -/
theorem roundEven_of_between {m : ℤ} {p q : ℚ} (hp : (m : ℚ) / 2 < p ∧ p < (m + 1) / 2)
    (hq : (m : ℚ) / 2 < q ∧ q < (m + 1) / 2) : roundEven p = roundEven q := by
  have hnearest (r : ℚ) (hr : (m : ℚ) / 2 < r ∧ r < (m + 1) / 2) :
      IsNearest ((m + 1) / 2) r := by
    left
    rw [abs_lt]
    rcases Int.even_or_odd' m with ⟨k, rfl | rfl⟩
    · rw [show (2 * k + 1) / 2 = k by omega]
      push_cast at hr
      constructor <;> linarith
    · rw [show (2 * k + 1 + 1) / 2 = k + 1 by omega]
      push_cast at hr ⊢
      constructor <;> linarith
  rw [roundEven_eq (hnearest p hp), roundEven_eq (hnearest q hq)]

/-- The rounded quotient of two naturals. -/
theorem roundEven_div {d : ℕ} (hd : 0 < d) (n : ℕ) :
    roundEven ((n : ℚ) / d) = roundHalfEven n d := by
  refine roundEven_eq ?_
  have hdq : (0 : ℚ) < d := by exact_mod_cast hd
  have hdiv : (d : ℚ) * ((n / d : ℕ) : ℚ) + ((n % d : ℕ) : ℚ) = n := by
    exact_mod_cast Nat.div_add_mod n d
  have hvalue : (n : ℚ) / d = ((n / d : ℕ) : ℚ) + ((n % d : ℕ) : ℚ) / d := by
    field_simp
    linarith
  have hrest : ((n % d : ℕ) : ℚ) / d < 1 :=
    (div_lt_one hdq).mpr (by exact_mod_cast Nat.mod_lt n hd)
  have hrest₀ : 0 ≤ ((n % d : ℕ) : ℚ) / d := by positivity
  have hmore : d < 2 * (n % d) ↔ 1 / 2 < ((n % d : ℕ) : ℚ) / d := by
    rw [lt_div_iff₀ hdq, div_mul_eq_mul_div, one_mul, div_lt_iff₀ (by norm_num), mul_comm]
    exact_mod_cast Iff.rfl
  have htie : 2 * (n % d) = d ↔ ((n % d : ℕ) : ℚ) / d = 1 / 2 := by
    rw [div_eq_iff hdq.ne', div_mul_eq_mul_div, one_mul, eq_div_iff (by norm_num), mul_comm]
    exact_mod_cast Iff.rfl
  rw [IsNearest, hvalue, abs_lt]
  simp only [roundHalfEven, hmore, htie]
  generalize n / d = quotient
  generalize ((n % d : ℕ) : ℚ) / d = rest at *
  split
  · rename_i h
    push_cast
    rcases h with hup | ⟨htie, hodd⟩
    · left
      constructor <;> linarith
    · refine .inr ⟨?_, by omega⟩
      rw [abs_of_nonneg] <;> linarith
  · rename_i h
    rw [not_or, not_and, not_lt] at h
    obtain ⟨hdown, heven⟩ := h
    push_cast
    rcases hdown.lt_or_eq with hdown | hdown
    · left
      constructor <;> linarith
    · refine .inr ⟨?_, by have := heven hdown; omega⟩
      rw [abs_of_nonpos] <;> linarith

/-! ## 28 digits -/

/-- A unit of the 28th digit of a number. -/
def unit28 (q : ℚ) : ℚ := 10 ^ (Int.log 10 |q| - 27)

/-- The number of 28 digits nearest to a rational. -/
def rounded (q : ℚ) : ℚ := roundEven (q / unit28 q) * unit28 q

theorem unit28_pos (q : ℚ) : 0 < unit28 q := by
  unfold unit28
  positivity

/-- The first digit of a number, from the power of ten below it. -/
theorem log_eq_of_le_of_lt {q : ℚ} {e : ℤ} (hle : (10 : ℚ) ^ e ≤ q) (hlt : q < 10 ^ (e + 1)) :
    Int.log 10 q = e := by
  have hpos : 0 < q := lt_of_lt_of_le (by positivity) hle
  have h₁ := (Int.zpow_le_iff_le_log (R := ℚ) (b := 10) (by norm_num) hpos).mp
    (by exact_mod_cast hle)
  have h₂ := (Int.lt_zpow_iff_log_lt (R := ℚ) (b := 10) (by norm_num) hpos).mp
    (by exact_mod_cast hlt)
  omega

theorem pow_log_le {q : ℚ} (hq : 0 < q) : (10 : ℚ) ^ Int.log 10 q ≤ q := by
  exact_mod_cast Int.zpow_log_le_self (b := 10) (by norm_num) hq

theorem lt_pow_log_succ (q : ℚ) : q < (10 : ℚ) ^ (Int.log 10 q + 1) := by
  exact_mod_cast Int.lt_zpow_succ_log_self (b := 10) (by norm_num) q

theorem rounded_zero : rounded 0 = 0 := by
  have h : roundEven 0 = 0 := by exact_mod_cast roundEven_intCast 0
  rw [rounded, zero_div, h, Int.cast_zero, zero_mul]

theorem rounded_neg (q : ℚ) : rounded (-q) = -rounded q := by
  rw [rounded, rounded, unit28, abs_neg, ← unit28, neg_div, roundEven_neg]
  push_cast
  ring

theorem rounded_of_pos {q : ℚ} (hq : 0 < q) :
    rounded q = roundEven (q / 10 ^ (Int.log 10 q - 27)) * 10 ^ (Int.log 10 q - 27) := by
  rw [rounded, unit28, abs_of_pos hq]

theorem rounded_nonneg {q : ℚ} (hq : 0 ≤ q) : 0 ≤ rounded q := by
  have h : roundEven 0 ≤ roundEven (q / unit28 q) :=
    roundEven_mono (div_nonneg hq (unit28_pos q).le)
  rw [show roundEven 0 = 0 by exact_mod_cast roundEven_intCast 0] at h
  exact mul_nonneg (by exact_mod_cast h) (unit28_pos q).le

/-- A number of 28 digits is not rounded. -/
theorem rounded_eq_self {c e : ℤ} (hc : |c| < 10 ^ 28) :
    rounded (c * 10 ^ e) = c * 10 ^ e := by
  rcases eq_or_ne c 0 with rfl | hne
  · rw [Int.cast_zero, zero_mul, rounded_zero]
  have habs : |(c : ℚ) * 10 ^ e| = |c| * 10 ^ e := by
    rw [abs_mul, abs_of_pos (by positivity : (0 : ℚ) < 10 ^ e), Int.cast_abs]
  have hlog : Int.log 10 |(c : ℚ) * 10 ^ e| < 28 + e := by
    refine (Int.lt_zpow_iff_log_lt (by norm_num) (by positivity)).mp ?_
    have hc : ((|c| : ℤ) : ℚ) < 10 ^ 28 := by exact_mod_cast hc
    rw [habs]
    push_cast
    rw [zpow_add₀ (by norm_num)]
    exact mul_lt_mul_of_pos_right (by exact_mod_cast hc) (by positivity)
  obtain ⟨k, hk⟩ : ∃ k : ℕ, e = Int.log 10 |(c : ℚ) * 10 ^ e| - 27 + k :=
    ⟨(e - (Int.log 10 |(c : ℚ) * 10 ^ e| - 27)).toNat, by omega⟩
  have hquot : (c : ℚ) * 10 ^ e / unit28 (c * 10 ^ e) = ((c * 10 ^ k : ℤ) : ℚ) := by
    rw [div_eq_iff (unit28_pos _).ne', unit28]
    generalize Int.log 10 |(c : ℚ) * 10 ^ e| = l at hk
    rw [hk, zpow_add₀ (by norm_num), zpow_natCast]
    push_cast
    ring
  rw [rounded, hquot, roundEven_intCast, ← hquot, div_mul_cancel₀ _ (unit28_pos _).ne']

/-- Rounding keeps the decade. -/
theorem rounded_bounds {q : ℚ} (hq : 0 < q) :
    (10 : ℚ) ^ Int.log 10 q ≤ rounded q ∧ rounded q ≤ 10 ^ (Int.log 10 q + 1) := by
  have hunit : (0 : ℚ) < 10 ^ (Int.log 10 q - 27) := by positivity
  have hpow (k : ℕ) : (10 : ℚ) ^ (Int.log 10 q - 27 + k) =
      ((10 ^ k : ℤ) : ℚ) * 10 ^ (Int.log 10 q - 27) := by
    rw [zpow_add₀ (by norm_num), zpow_natCast, mul_comm]
    push_cast
    rfl
  have hlow : (10 : ℚ) ^ Int.log 10 q = ((10 ^ 27 : ℤ) : ℚ) * 10 ^ (Int.log 10 q - 27) := by
    rw [← hpow]
    congr 1
    omega
  have hhigh : (10 : ℚ) ^ (Int.log 10 q + 1) =
      ((10 ^ 28 : ℤ) : ℚ) * 10 ^ (Int.log 10 q - 27) := by
    rw [← hpow]
    congr 1
    omega
  rw [rounded_of_pos hq, hlow, hhigh]
  constructor
  · refine mul_le_mul_of_nonneg_right (Int.cast_le.mpr ?_) hunit.le
    rw [← roundEven_intCast (10 ^ 27)]
    refine roundEven_mono ((le_div_iff₀ hunit).mpr ?_)
    rw [← hlow]
    exact pow_log_le hq
  · refine mul_le_mul_of_nonneg_right (Int.cast_le.mpr ?_) hunit.le
    rw [← roundEven_intCast (10 ^ 28)]
    refine roundEven_mono ((div_le_iff₀ hunit).mpr ?_)
    rw [← hhigh]
    exact (lt_pow_log_succ q).le

theorem rounded_le_of_pos {p q : ℚ} (hp : 0 < p) (hpq : p ≤ q) : rounded p ≤ rounded q := by
  have hq := hp.trans_le hpq
  rcases (Int.log_mono_right (b := 10) hp hpq).lt_or_eq with hlt | heq
  · calc rounded p ≤ 10 ^ (Int.log 10 p + 1) := (rounded_bounds hp).2
      _ ≤ 10 ^ Int.log 10 q := zpow_le_zpow_right₀ (by norm_num) hlt
      _ ≤ rounded q := (rounded_bounds hq).1
  · rw [rounded_of_pos hp, rounded_of_pos hq, heq]
    have hunit : (0 : ℚ) < 10 ^ (Int.log 10 q - 27) := by positivity
    exact mul_le_mul_of_nonneg_right
      (Int.cast_le.mpr (roundEven_mono (div_le_div_of_nonneg_right hpq hunit.le))) hunit.le

/-- Rounding is monotone. -/
theorem rounded_mono : Monotone rounded := by
  intro p q hpq
  rcases lt_or_ge 0 p with hp | hp
  · exact rounded_le_of_pos hp hpq
  rcases lt_or_ge q 0 with hq | hq
  · have := rounded_le_of_pos (neg_pos.mpr hq) (neg_le_neg hpq)
    rw [rounded_neg, rounded_neg] at this
    linarith
  · have hp := rounded_nonneg (neg_nonneg.mpr hp)
    rw [rounded_neg] at hp
    linarith [rounded_nonneg hq]

/-- A rounded number has 28 digits. -/
theorem exists_digits_of_rounded {q : ℚ} (hq : 0 < q) :
    ∃ c e : ℤ, |c| < 10 ^ 28 ∧ rounded q = c * 10 ^ e := by
  have hround := rounded_of_pos hq
  have hunit : (0 : ℚ) < 10 ^ (Int.log 10 q - 27) := by positivity
  rcases eq_or_lt_of_le (rounded_bounds hq).2 with heq | hlt
  · exact ⟨1, _, by norm_num, by rw [heq, Int.cast_one, one_mul]⟩
  · refine ⟨_, _, abs_lt.mpr ⟨?_, ?_⟩, hround⟩
    · have h : roundEven 0 ≤ roundEven (q / 10 ^ (Int.log 10 q - 27)) :=
        roundEven_mono (div_nonneg hq.le hunit.le)
      rw [show roundEven 0 = 0 by exact_mod_cast roundEven_intCast 0] at h
      omega
    · rw [hround, show Int.log 10 q + 1 = 28 + (Int.log 10 q - 27) by omega,
        zpow_add₀ (by norm_num)] at hlt
      exact_mod_cast lt_of_mul_lt_mul_right hlt hunit.le

theorem rounded_rounded (q : ℚ) : rounded (rounded q) = rounded q := by
  have hpos : ∀ q : ℚ, 0 < q → rounded (rounded q) = rounded q := by
    intro q hq
    obtain ⟨c, e, hc, heq⟩ := exists_digits_of_rounded hq
    rw [heq, rounded_eq_self hc]
  rcases lt_trichotomy q 0 with hq | rfl | hq
  · have h := hpos (-q) (neg_pos.mpr hq)
    rwa [rounded_neg, rounded_neg, neg_inj] at h
  · rw [rounded_zero, rounded_zero]
  · exact hpos q hq

/-- The relative error of a rounding : half a unit of the 28th digit. -/
theorem abs_rounded_sub_le (q : ℚ) : |rounded q - q| ≤ |q| / (2 * 10 ^ 27) := by
  rcases eq_or_ne q 0 with rfl | hne
  · simp [rounded_zero]
  have hunit := unit28_pos q
  have hle : unit28 q * 10 ^ 27 ≤ |q| := by
    calc unit28 q * 10 ^ 27 = 10 ^ Int.log 10 |q| := by
          rw [unit28, ← zpow_natCast, ← zpow_add₀ (by norm_num)]
          congr 1
          omega
      _ ≤ |q| := pow_log_le (abs_pos.mpr hne)
  have hdiff : rounded q - q = (roundEven (q / unit28 q) - q / unit28 q) * unit28 q := by
    rw [rounded, sub_mul, div_mul_cancel₀ _ hunit.ne']
  rw [hdiff, abs_mul, abs_of_pos hunit, le_div_iff₀ (by positivity)]
  have hround := mul_le_mul_of_nonneg_right (abs_roundEven_sub_le (q / unit28 q)) hunit.le
  linarith

/-! ## The operations -/

theorem lt_pow_digitCount (n : ℕ) : n < 10 ^ digitCount n :=
  (Nat.length_toDigits_le_iff (by norm_num) Nat.length_toDigits_pos).mp le_rfl

theorem pow_le_of_digitCount {n : ℕ} (hn : 0 < n) : 10 ^ (digitCount n - 1) ≤ n := by
  rcases Nat.eq_zero_or_pos (digitCount n - 1) with h | h
  · rw [h, pow_zero]
    exact hn
  · exact pow_le_of_lt_digitCount h (by omega)

/-- The power of ten below a coefficient at its exponent. -/
theorem log_coeff {n : ℕ} (hn : 0 < n) (e : ℤ) :
    Int.log 10 ((n : ℚ) * 10 ^ e) = (digitCount n : ℤ) - 1 + e := by
  have hpos : 0 < digitCount n := Nat.length_toDigits_pos
  have hlow : (10 : ℚ) ^ (digitCount n - 1) ≤ n := by exact_mod_cast pow_le_of_digitCount hn
  have hhigh : (n : ℚ) < 10 ^ digitCount n := by exact_mod_cast lt_pow_digitCount n
  have hexp : (digitCount n : ℤ) - 1 = ((digitCount n - 1 : ℕ) : ℤ) := by omega
  refine log_eq_of_le_of_lt ?_ ?_
  · rw [hexp, zpow_add₀ (by norm_num), zpow_natCast]
    exact mul_le_mul_of_nonneg_right hlow (by positivity)
  · rw [show (digitCount n : ℤ) - 1 + e + 1 = digitCount n + e by ring,
      zpow_add₀ (by norm_num), zpow_natCast]
    exact mul_lt_mul_of_pos_right hhigh (by positivity)

/-- The magnitude that `fix` computes. -/
theorem rounded_coeff (n : ℕ) (e : ℤ) (excess : ℕ) (h : excess = digitCount n - precision)
    (hexcess : excess ≠ 0) :
    rounded (n * 10 ^ e) = roundHalfEven n (10 ^ excess) * 10 ^ (e + excess) := by
  have hn : 0 < n := by
    rcases Nat.eq_zero_or_pos n with rfl | hn
    · exact absurd h hexcess
    · exact hn
  have hunit : (10 : ℚ) ^ (Int.log 10 ((n : ℚ) * 10 ^ e) - 27) = 10 ^ (e + excess) := by
    rw [log_coeff hn]
    congr 1
    unfold precision at h
    omega
  have hquot : (n : ℚ) * 10 ^ e / 10 ^ (e + excess) = (n : ℚ) / (10 ^ excess : ℕ) := by
    rw [zpow_add₀ (by norm_num), zpow_natCast]
    push_cast
    field_simp
  rw [rounded_of_pos (by positivity), hunit, hquot, roundEven_div (by positivity), Int.cast_natCast]

theorem roundHalfEven_lt_or (n : ℕ) (hn : precision < digitCount n) :
    roundHalfEven n (10 ^ (digitCount n - precision)) ≤ 10 ^ 28 := by
  refine roundHalfEven_le (by positivity) ?_
  rw [← pow_add]
  unfold precision at *
  rw [show 28 + (digitCount n - 28) = digitCount n by omega]
  exact (lt_pow_digitCount n).le

theorem toRat_eq_sign (x : Decimal) : x.toRat = x.coeff.sign * (x.coeff.natAbs * 10 ^ x.exp) := by
  rw [toRat, ← mul_assoc]
  congr 1
  rw [← Int.cast_natCast, ← Int.cast_mul, Int.sign_mul_natAbs]

theorem rounded_sign_mul (n : ℤ) (q : ℚ) : rounded (n.sign * q) = n.sign * rounded q := by
  rcases Int.sign_trichotomy n with h | h | h <;> rw [h]
  · simp
  · simp [rounded_zero]
  · simp [rounded_neg]

/-- `fix` rounds the value. -/
theorem toRat_fix (x : Decimal) : (fix x).toRat = rounded x.toRat := by
  simp only [fix]
  split
  case isTrue h =>
    have hlt : |x.coeff| < 10 ^ 28 := by
      have hdigits : 10 ^ digitCount x.coeff.natAbs ≤ 10 ^ 28 :=
        Nat.pow_le_pow_right (by norm_num) (by unfold precision at h; omega)
      have hlt := (lt_pow_digitCount x.coeff.natAbs).trans_le hdigits
      rw [Int.abs_eq_natAbs]
      exact_mod_cast hlt
    rw [toRat, rounded_eq_self hlt]
  case isFalse h =>
    have hcoeff := rounded_coeff x.coeff.natAbs x.exp _ rfl h
    rw [toRat_eq_sign x, rounded_sign_mul, hcoeff]
    split
    case isTrue hcarry =>
      have hle := roundHalfEven_lt_or x.coeff.natAbs (by omega)
      have hge := pow_le_of_lt_digitCount (by decide) hcarry
      have heq : roundHalfEven x.coeff.natAbs (10 ^ (digitCount x.coeff.natAbs - precision)) =
          10 ^ 28 := le_antisymm hle hge
      rw [heq, toRat, zpow_add₀ (by norm_num : (10 : ℚ) ≠ 0) _ 1]
      push_cast
      ring
    case isFalse =>
      rw [toRat]
      push_cast
      ring

theorem toRat_add (x y : Decimal) : (x + y).toRat = rounded (x.toRat + y.toRat) := by
  have hsum : (⟨x.scaled (min x.exp y.exp) + y.scaled (min x.exp y.exp),
      min x.exp y.exp⟩ : Decimal).toRat = x.toRat + y.toRat := by
    rw [toRat_eq_scaled (min_le_left x.exp y.exp), toRat_eq_scaled (min_le_right x.exp y.exp),
      ← add_mul, toRat]
    push_cast
    rfl
  rw [← hsum, ← toRat_fix]
  rfl

theorem toRat_sub (x y : Decimal) : (x - y).toRat = rounded (x.toRat - y.toRat) := by
  have hneg : (⟨-y.coeff, y.exp⟩ : Decimal).toRat = -y.toRat := by
    simp [toRat]
  rw [sub_eq_add_neg, ← hneg]
  exact toRat_add x ⟨-y.coeff, y.exp⟩

theorem toRat_mul (x y : Decimal) : (x * y).toRat = rounded (x.toRat * y.toRat) := by
  have hprod : (⟨x.coeff * y.coeff, x.exp + y.exp⟩ : Decimal).toRat = x.toRat * y.toRat := by
    simp only [toRat]
    rw [zpow_add₀ (by norm_num)]
    push_cast
    ring
  rw [← hprod, ← toRat_fix]
  rfl

section Between

variable {l m : ℕ} (hlow : 2 * 10 ^ (l + 27) ≤ m) (hhigh : m + 1 ≤ 2 * 10 ^ (l + 28)) {r : ℚ}
  (hr : (5 * m : ℚ) < r ∧ r < 5 * (m + 1))

include hlow hhigh hr

/-- A number between two neighbouring multiples of five has the decade of both. -/
theorem log_of_between (e : ℤ) : Int.log 10 (r * 10 ^ e) = l + 28 + e := by
  have hlow : ((2 * 10 ^ (l + 27) : ℕ) : ℚ) ≤ m := by exact_mod_cast hlow
  have hhigh : ((m + 1 : ℕ) : ℚ) ≤ (2 * 10 ^ (l + 28) : ℕ) := by exact_mod_cast hhigh
  push_cast at hlow hhigh
  have hpow : (10 : ℚ) ^ (l + 28) = 10 ^ (l + 27) * 10 := pow_succ _ _
  have hpow' : (10 : ℚ) ^ (l + 29) = 10 ^ (l + 28) * 10 := pow_succ _ _
  refine log_eq_of_le_of_lt ?_ ?_
  · have hexp : (l : ℤ) + 28 + e = (l + 28 : ℕ) + e := by push_cast; rfl
    rw [hexp, zpow_add₀ (by norm_num), zpow_natCast]
    refine mul_le_mul_of_nonneg_right ?_ (by positivity)
    linarith [hr.1]
  · have hexp : (l : ℤ) + 28 + e + 1 = (l + 29 : ℕ) + e := by push_cast; omega
    rw [hexp, zpow_add₀ (by norm_num), zpow_natCast]
    refine mul_lt_mul_of_pos_right ?_ (by positivity)
    linarith [hr.2]

omit hlow hhigh in
/-- In units of the 28th digit it lies between two neighbouring halves. -/
theorem halves_of_between : ((m / 10 ^ l : ℕ) : ℤ) / (2 : ℚ) < r / 10 ^ (l + 1) ∧
    r / 10 ^ (l + 1) < (((m / 10 ^ l : ℕ) : ℤ) + 1) / (2 : ℚ) := by
  have hdown : ((m / 10 ^ l * 10 ^ l : ℕ) : ℚ) ≤ m := by
    exact_mod_cast Nat.div_mul_le_self m (10 ^ l)
  have hup : ((m + 1 : ℕ) : ℚ) ≤ ((m / 10 ^ l + 1) * 10 ^ l : ℕ) := by
    exact_mod_cast Nat.lt_mul_of_div_lt (Nat.lt_succ_self _) (by positivity)
  push_cast at hdown hup
  have hten : (10 : ℚ) ^ (l + 1) = 10 ^ l * 10 := pow_succ _ _
  rw [Int.cast_natCast, lt_div_iff₀ (by positivity), div_lt_iff₀ (by positivity), hten]
  constructor
  · linarith [hr.1]
  · linarith [hr.2]

/-- Rounding within a decade is rounding to its last digit. -/
theorem rounded_of_decade (e : ℤ) :
    rounded (r * 10 ^ e) = roundEven (r / 10 ^ (l + 1)) * 10 ^ ((l : ℤ) + 1 + e) := by
  have hleft : (0 : ℚ) ≤ 5 * m := mul_nonneg (by norm_num) m.cast_nonneg
  have hpos : 0 < r * 10 ^ e := mul_pos (hleft.trans_lt hr.1) (zpow_pos (by norm_num) e)
  have hexp : (l : ℤ) + 28 + e - 27 = (l + 1 : ℕ) + e := by push_cast; omega
  have hquot : r * 10 ^ e / 10 ^ (((l + 1 : ℕ) : ℤ) + e) = r / 10 ^ (l + 1) := by
    rw [zpow_add₀ (by norm_num), zpow_natCast]
    field_simp
  rw [rounded_of_pos hpos, log_of_between hlow hhigh hr, hexp, hquot]
  push_cast
  rfl

end Between

/-- Numbers between two neighbouring multiples of five are rounded alike, when these have
more than 28 digits. -/
theorem rounded_of_between {m : ℕ} (hm : 10 ^ 28 ≤ 5 * m) (e : ℤ) {p q : ℚ}
    (hp : (5 * m : ℚ) < p ∧ p < 5 * (m + 1)) (hq : (5 * m : ℚ) < q ∧ q < 5 * (m + 1)) :
    rounded (p * 10 ^ e) = rounded (q * 10 ^ e) := by
  have hlog : 28 ≤ Nat.log 10 (5 * m) := Nat.le_log_of_pow_le (by decide) hm
  obtain ⟨l, hl⟩ := Nat.exists_eq_add_of_le' hlog
  have hlow : 2 * 10 ^ (l + 27) ≤ m := by
    have hpow := Nat.pow_log_le_self 10 (x := 5 * m) (by omega)
    have hten : 10 ^ (l + 28) = 10 ^ (l + 27) * 10 := pow_succ _ _
    rw [hl, hten] at hpow
    omega
  have hhigh : m + 1 ≤ 2 * 10 ^ (l + 28) := by
    have hpow := Nat.lt_pow_succ_log_self (b := 10) (by norm_num) (5 * m)
    have hten : 10 ^ (l + 28).succ = 10 ^ (l + 28) * 10 := pow_succ _ _
    rw [hl, hten] at hpow
    omega
  rw [rounded_of_decade hlow hhigh hp, rounded_of_decade hlow hhigh hq,
    roundEven_of_between (halves_of_between hp) (halves_of_between hq)]

theorem toRat_fix_sign (k : ℤ) (n : ℕ) (e : ℤ) :
    (fix ⟨k.sign * n, e⟩).toRat = k.sign * rounded (n * 10 ^ e) := by
  rw [toRat_fix, ← rounded_sign_mul, toRat]
  push_cast
  rw [mul_assoc]

/-- Trailing zeros do not change the value. -/
theorem stripZeros_value (n coeff : ℕ) (e : ℤ) :
    ((stripZeros n coeff e).1 : ℚ) * 10 ^ (stripZeros n coeff e).2 = coeff * 10 ^ e := by
  induction n generalizing coeff e with
  | zero => rfl
  | succ n ih =>
    rw [stripZeros]
    split
    case isTrue h =>
      obtain ⟨k, rfl⟩ := Nat.dvd_of_mod_eq_zero h
      rw [ih, Nat.mul_div_cancel_left k (by norm_num), zpow_add₀ (by norm_num)]
      push_cast
      ring
    case isFalse => rfl

/-- The scaled quotient has more than 28 digits. -/
theorem pow_le_scaled_quotient {a b : ℕ} (ha : 0 < a) {shift : ℤ}
    (hshift : shift = (digitCount b : ℤ) - digitCount a + precision + 1) :
    10 ^ 28 * (b * 10 ^ (-shift).toNat) ≤ a * 10 ^ shift.toNat := by
  have hdigit : 0 < digitCount a := Nat.length_toDigits_pos
  unfold precision at hshift
  calc 10 ^ 28 * (b * 10 ^ (-shift).toNat)
      ≤ 10 ^ 28 * (10 ^ digitCount b * 10 ^ (-shift).toNat) :=
        Nat.mul_le_mul_left _ (Nat.mul_le_mul_right _ (lt_pow_digitCount b).le)
    _ = 10 ^ (digitCount a - 1) * 10 ^ shift.toNat := by
        rw [← pow_add, ← pow_add, ← pow_add]
        congr 1
        omega
    _ ≤ a * 10 ^ shift.toNat := Nat.mul_le_mul_right _ (pow_le_of_digitCount ha)

/-- One digit made sticky by a remainder rounds as the quotient itself. -/
theorem rounded_sticky {n d : ℕ} (hd : 0 < d) (hlow : 10 ^ 28 * d ≤ n) (hrest : n % d ≠ 0)
    (e : ℤ) :
    rounded ((if n / d % 5 = 0 then n / d + 1 else n / d : ℕ) * 10 ^ e) =
      rounded ((n : ℚ) / d * 10 ^ e) := by
  have hdq : (0 : ℚ) < d := by exact_mod_cast hd
  have hquot : 10 ^ 28 ≤ n / d := (Nat.le_div_iff_mul_le hd).mpr hlow
  have hbelow : ((n / d : ℕ) : ℚ) < (n : ℚ) / d := by
    have hlt : n / d * d < n := by
      have := Nat.div_add_mod' n d
      omega
    rw [lt_div_iff₀ hdq]
    exact_mod_cast hlt
  have habove : (n : ℚ) / d < ((n / d : ℕ) : ℚ) + 1 := by
    rw [div_lt_iff₀ hdq]
    exact_mod_cast Nat.lt_mul_of_div_lt (Nat.lt_succ_self (n / d)) hd
  have hfive : 5 * (n / d / 5) ≤ n / d ∧ n / d + 1 ≤ 5 * (n / d / 5 + 1) := by omega
  have hfive₁ : ((5 * (n / d / 5) : ℕ) : ℚ) ≤ (n / d : ℕ) := by exact_mod_cast hfive.1
  have hfive₂ : ((n / d + 1 : ℕ) : ℚ) ≤ (5 * (n / d / 5 + 1) : ℕ) := by exact_mod_cast hfive.2
  have hsticky : 5 * (n / d / 5) < (if n / d % 5 = 0 then n / d + 1 else n / d) ∧
      (if n / d % 5 = 0 then n / d + 1 else n / d) < 5 * (n / d / 5 + 1) := by
    split <;> omega
  refine rounded_of_between (m := n / d / 5) (by omega) e ⟨?_, ?_⟩ ⟨?_, ?_⟩
  · exact_mod_cast hsticky.1
  · exact_mod_cast hsticky.2
  · push_cast at hfive₁
    linarith
  · push_cast at hfive₂
    linarith

/-- The exact quotient, by magnitudes at a shift. -/
theorem toRat_div_toRat (x : Decimal) {y : Decimal} (hy : y.coeff ≠ 0) (shift : ℤ) :
    x.toRat / y.toRat = ((x.coeff * y.coeff).sign : ℤ) *
      (((x.coeff.natAbs * 10 ^ shift.toNat : ℕ) : ℚ) /
        (y.coeff.natAbs * 10 ^ (-shift).toNat : ℕ) * 10 ^ (x.exp - y.exp - shift)) := by
  have hsign : (y.coeff.sign : ℚ) * y.coeff.sign = 1 := by
    rcases lt_or_gt_of_ne hy with h | h
    · simp [Int.sign_eq_neg_one_of_neg h]
    · simp [Int.sign_eq_one_of_pos h]
  have hsign₀ : (y.coeff.sign : ℚ) ≠ 0 := fun h => by simp [h] at hsign
  have hb : (y.coeff.natAbs : ℚ) ≠ 0 := by exact_mod_cast Int.natAbs_ne_zero.mpr hy
  have hshift : (10 : ℚ) ^ shift.toNat = 10 ^ shift * 10 ^ (-shift).toNat := by
    rw [← zpow_natCast, ← zpow_natCast, ← zpow_add₀ (by norm_num)]
    congr 1
    omega
  have hexp : (10 : ℚ) ^ x.exp = 10 ^ shift * 10 ^ (x.exp - y.exp - shift) * 10 ^ y.exp := by
    rw [← zpow_add₀ (by norm_num), ← zpow_add₀ (by norm_num)]
    congr 1
    omega
  rw [toRat_eq_sign x, toRat_eq_sign y, Int.sign_mul, hexp]
  push_cast
  rw [hshift]
  field_simp
  rw [pow_two, hsign, mul_one]

/-- Division rounds the exact quotient. -/
theorem toRat_div (x : Decimal) {y : Decimal} (hy : y.coeff ≠ 0) :
    (x / y).toRat = rounded (x.toRat / y.toRat) := by
  change (div x y).toRat = _
  unfold div
  dsimp only
  split
  case isTrue hx => simp [toRat, hx, rounded_zero]
  case isFalse hx =>
    have ha : 0 < x.coeff.natAbs := Int.natAbs_pos.mpr hx
    have hb : 0 < y.coeff.natAbs := Int.natAbs_pos.mpr hy
    generalize hshift :
      (digitCount y.coeff.natAbs : ℤ) - digitCount x.coeff.natAbs + precision + 1 = shift
    have hlow := pow_le_scaled_quotient (b := y.coeff.natAbs) ha hshift.symm
    rw [toRat_div_toRat x hy shift, rounded_sign_mul, ← Int.sign_mul]
    have hd : 0 < y.coeff.natAbs * 10 ^ (-shift).toNat := by positivity
    generalize x.coeff.natAbs * 10 ^ shift.toNat = n at *
    generalize y.coeff.natAbs * 10 ^ (-shift).toNat = d at *
    split
    case isTrue hrest =>
      obtain ⟨q, rfl⟩ := Nat.dvd_of_mod_eq_zero hrest
      have hdq : (d : ℚ) ≠ 0 := by exact_mod_cast hd.ne'
      rw [toRat_fix_sign, stripZeros_value, Nat.mul_div_cancel_left q hd]
      push_cast
      rw [mul_div_cancel_left₀ _ hdq]
    case isFalse hrest => rw [toRat_fix_sign, rounded_sticky hd hlow hrest]

/-! ## Shifts and integral values -/

theorem toRat_shift (x : Decimal) (n : ℤ) :
    (⟨x.coeff, x.exp + n⟩ : Decimal).toRat = x.toRat * 10 ^ n := by
  rw [toRat, toRat, zpow_add₀ (by norm_num), mul_assoc]

/-- A power of two is rounded once. -/
theorem toRat_twoPow (n : ℤ) : (twoPow n).toRat = rounded (2 ^ n) := by
  unfold twoPow
  split
  case isTrue h =>
    obtain ⟨k, rfl⟩ := Int.eq_ofNat_of_zero_le h
    rw [toRat_fix, toRat, zpow_zero, mul_one, Int.toNat_natCast, zpow_natCast]
    push_cast
    rfl
  case isFalse h =>
    obtain ⟨k, rfl⟩ : ∃ k : ℕ, n = -k := ⟨(-n).toNat, by omega⟩
    rw [toRat_fix, toRat, neg_neg, Int.toNat_natCast, zpow_neg, zpow_neg, zpow_natCast,
      zpow_natCast]
    congr 1
    push_cast
    rw [show (10 : ℚ) ^ k = 5 ^ k * 2 ^ k by rw [← mul_pow]; norm_num]
    field_simp

/-- A power of two that has at most 28 digits. -/
theorem rounded_two_zpow {n : ℤ} (hlow : -40 ≤ n) (hhigh : n ≤ 93) :
    rounded ((2 : ℚ) ^ n) = 2 ^ n := by
  obtain ⟨k, rfl | rfl⟩ := n.eq_nat_or_neg
  · have hle : (2 : ℤ) ^ k ≤ 2 ^ 93 := pow_le_pow_right₀ (by norm_num) (by omega)
    have habs : |(2 : ℤ) ^ k| < 10 ^ 28 := by
      rw [abs_of_pos (by positivity)]
      exact hle.trans_lt (by norm_num)
    have h := rounded_eq_self (e := 0) habs
    rw [zpow_zero, mul_one] at h
    exact_mod_cast h
  · have hle : (5 : ℤ) ^ k ≤ 5 ^ 40 := pow_le_pow_right₀ (by norm_num) (by omega)
    have habs : |(5 : ℤ) ^ k| < 10 ^ 28 := by
      rw [abs_of_pos (by positivity)]
      exact hle.trans_lt (by norm_num)
    have heq : (2 : ℚ) ^ (-k : ℤ) = ((5 ^ k : ℤ) : ℚ) * 10 ^ (-k : ℤ) := by
      rw [zpow_neg, zpow_neg, zpow_natCast, zpow_natCast,
        show (10 : ℚ) ^ k = 5 ^ k * 2 ^ k by rw [← mul_pow]; norm_num]
      push_cast
      field_simp
    rw [heq, rounded_eq_self habs]

theorem sameValue_iff {x y : Decimal} : SameValue x y ↔ x.toRat = y.toRat := by
  rw [SameValue, le_iff_toRat_le, le_iff_toRat_le, le_antisymm_iff]

theorem roundEven_sign_mul (n : ℤ) (q : ℚ) : roundEven (n.sign * q) = n.sign * roundEven q := by
  rcases Int.sign_trichotomy n with h | h | h <;> rw [h]
  · simp
  · simpa using roundEven_intCast 0
  · simp [roundEven_neg]

/-- A power of ten as a quotient of whole powers. -/
theorem zpow_eq_div (e : ℤ) : (10 : ℚ) ^ e = (10 ^ e.toNat : ℕ) / (10 ^ (-e).toNat : ℕ) := by
  obtain ⟨n, rfl | rfl⟩ := e.eq_nat_or_neg
  · simp
  · simp

theorem quantize_eq (x : Decimal) : x.quantize = roundEven x.toRat := by
  rw [toRat_eq_sign, roundEven_sign_mul, quantize, zpow_eq_div, ← mul_div_assoc]
  congr 1
  have := roundEven_div (d := 10 ^ (-x.exp).toNat) (by positivity)
    (x.coeff.natAbs * 10 ^ x.exp.toNat)
  rw [← this]
  push_cast
  rfl

/-- The integer part of a whole number is the number. -/
theorem truncate_eq {x : Decimal} {n : ℤ} (h : x.toRat = n) : x.truncate = n := by
  have hpow : (0 : ℚ) < (10 ^ (-x.exp).toNat : ℕ) := by positivity
  rw [toRat, zpow_eq_div, ← mul_div_assoc, div_eq_iff hpow.ne'] at h
  have hcoeff : x.coeff * 10 ^ x.exp.toNat = n * 10 ^ (-x.exp).toNat := by exact_mod_cast h
  rw [truncate, hcoeff, Int.mul_tdiv_cancel _ (by positivity)]

/-- A large number is rounded to an integer. -/
theorem exists_rounded_of_large {q : ℚ} (h : 10 ^ 28 ≤ |q|) : ∃ m : ℤ, rounded q = m := by
  have hlog : 28 ≤ Int.log 10 |q| := by
    rw [← Int.zpow_le_iff_le_log (by norm_num) ((by positivity : (0 : ℚ) < 10 ^ 28).trans_le h)]
    exact_mod_cast h
  obtain ⟨k, hk⟩ := Int.eq_ofNat_of_zero_le (show 0 ≤ Int.log 10 |q| - 27 by omega)
  refine ⟨roundEven (q / unit28 q) * 10 ^ k, ?_⟩
  have hunit : unit28 q = (10 : ℚ) ^ k := by rw [unit28, hk, zpow_natCast]
  rw [rounded, hunit]
  push_cast
  rfl

/-- An integer of at most 28 digits is not rounded. -/
theorem rounded_intCast {n : ℤ} (h : |n| < 10 ^ 28) : rounded n = n := by
  have := rounded_eq_self (e := 0) h
  rwa [zpow_zero, mul_one] at this

/-- Rounding makes an integer of an integer. -/
theorem exists_rounded_intCast (n : ℤ) : ∃ m : ℤ, rounded n = m := by
  rcases lt_or_ge |n| (10 ^ 28) with hlt | hge
  · exact ⟨n, rounded_intCast hlt⟩
  · exact exists_rounded_of_large (by exact_mod_cast hge)

/-! ## The limits of the exponent -/

/-- The number a result becomes : one of 28 digits, and below the normal numbers a multiple of
the smallest power of ten. -/
def limited (q : ℚ) : ℚ :=
  if |q| < 10 ^ emin then roundEven (q / 10 ^ etiny) * 10 ^ etiny else rounded q

/-- The decade of a number that is not zero. -/
theorem lt_zpow_iff_adjusted {x : Decimal} (hx : x.coeff ≠ 0) {e : ℤ} :
    |x.toRat| < 10 ^ e ↔ x.adjusted < e := by
  have hn : 0 < x.coeff.natAbs := Int.natAbs_pos.mpr hx
  have habs : |x.toRat| = x.coeff.natAbs * 10 ^ x.exp := by
    rw [toRat, abs_mul, abs_of_pos (by positivity : (0 : ℚ) < 10 ^ x.exp), Nat.cast_natAbs,
      Int.cast_abs]
  have hpos : (0 : ℚ) < |x.toRat| := by
    rw [habs]
    positivity
  have hlog := Int.lt_zpow_iff_log_lt (R := ℚ) (b := 10) (x := e) (by norm_num) hpos
  rw [Nat.cast_ofNat] at hlog
  rw [hlog, habs, log_coeff hn, adjusted]
  omega

/-- A subnormal number is rounded to the least exponent. -/
theorem toRat_subnormal (x : Decimal) :
    x.subnormal.toRat = roundEven (x.toRat / 10 ^ etiny) * 10 ^ etiny := by
  have hpow : (10 : ℚ) ^ etiny ≠ 0 := by positivity
  rw [subnormal]
  split
  case isTrue h =>
    have hwhole : x.toRat / 10 ^ etiny = (x.scaled etiny : ℤ) := by
      rw [toRat_eq_scaled h, mul_div_cancel_right₀ _ hpow]
    rw [hwhole, roundEven_intCast, ← toRat_eq_scaled h]
  case isFalse h =>
    obtain ⟨k, hk⟩ := Int.eq_ofNat_of_zero_le (show 0 ≤ etiny - x.exp by omega)
    have hquot : x.toRat / 10 ^ etiny = x.coeff.sign * ((x.coeff.natAbs : ℚ) / (10 ^ k : ℕ)) := by
      rw [toRat_eq_sign, show etiny = x.exp + k by omega, zpow_add₀ (by norm_num), zpow_natCast]
      push_cast
      field_simp
    rw [hk, Int.toNat_natCast, hquot, roundEven_sign_mul, roundEven_div (by positivity), toRat]

theorem toRat_eq_zero_of_coeff {x : Decimal} (h : x.coeff = 0) : x.toRat = 0 := by
  rw [toRat, h, Int.cast_zero, zero_mul]

theorem limited_zero : limited 0 = 0 := by
  have hzero : roundEven 0 = 0 := by exact_mod_cast roundEven_intCast 0
  rw [limited, abs_zero, if_pos (by positivity), zero_div, hzero, Int.cast_zero, zero_mul]

/-- The limited number stays below the normal numbers, or at the first of them. -/
theorem abs_limited_lt {q : ℚ} (h : |q| < 10 ^ emin) : |limited q| < 10 ^ (emin + 1) := by
  have htiny : (0 : ℚ) < 10 ^ etiny := by positivity
  have hmin : (0 : ℚ) < 10 ^ emin := by positivity
  have hle : (10 : ℚ) ^ etiny ≤ 10 ^ emin := zpow_le_zpow_right₀ (by norm_num) (by decide)
  have hround := mul_le_mul_of_nonneg_right (abs_roundEven_sub_le (q / 10 ^ etiny)) htiny.le
  have herror : |limited q - q| ≤ 1 / 2 * 10 ^ etiny := by
    have hdiff : limited q - q = (roundEven (q / 10 ^ etiny) - q / 10 ^ etiny) * 10 ^ etiny := by
      rw [limited, if_pos h, sub_mul, div_mul_cancel₀ _ htiny.ne']
    rwa [hdiff, abs_mul, abs_of_pos htiny]
  have htriangle := abs_sub_abs_le_abs_sub (limited q) q
  rw [zpow_add₀ (by norm_num), zpow_one]
  linarith

theorem rounded_ne_zero {q : ℚ} (hq : q ≠ 0) : rounded q ≠ 0 := by
  intro hzero
  have herror := abs_rounded_sub_le q
  have hpos := abs_pos.mpr hq
  rw [hzero, zero_sub, abs_neg, le_div_iff₀ (by norm_num)] at herror
  linarith

/-- A result is the limited number when that is below the largest power, and raises else. -/
theorem finalize_cases (x : Decimal) :
    (|limited x.toRat| < 10 ^ (emax + 1) ∧ ∃ y, finalize x = .ok y ∧ y.toRat = limited x.toRat) ∨
    (10 ^ (emax + 1) ≤ |limited x.toRat| ∧ finalize x = .error .overflow) := by
  by_cases hx : x.coeff = 0
  · refine .inl ⟨?_, _, if_pos hx, ?_⟩
    · rw [toRat_eq_zero_of_coeff hx, limited_zero, abs_zero]
      positivity
    · rw [toRat_eq_zero_of_coeff hx, limited_zero, toRat_eq_zero_of_coeff rfl]
  have hrun : finalize x = if x.adjusted < emin then .ok x.subnormal
      else if emax < (fix x).adjusted then .error .overflow else .ok (fix x) := if_neg hx
  have hiff := lt_zpow_iff_adjusted hx (e := emin)
  by_cases hsmall : x.adjusted < emin
  · have hlt := hiff.mpr hsmall
    refine .inl ⟨(abs_limited_lt hlt).trans_le ?_, _, hrun.trans (if_pos hsmall), ?_⟩
    · exact zpow_le_zpow_right₀ (by norm_num) (by decide)
    · rw [toRat_subnormal, limited, if_pos hlt]
  · have hvalue : limited x.toRat = (fix x).toRat := by
      rw [toRat_fix, limited, if_neg (mt hiff.mp hsmall)]
    have hfix : (fix x).coeff ≠ 0 := by
      intro hzero
      have hx' : x.toRat ≠ 0 := mul_ne_zero (Int.cast_ne_zero.mpr hx) (by positivity)
      exact rounded_ne_zero hx' ((toRat_fix x).symm.trans (toRat_eq_zero_of_coeff hzero))
    have hlarge := lt_zpow_iff_adjusted hfix (e := emax + 1)
    rw [hvalue, hrun, if_neg hsmall]
    by_cases hover : emax < (fix x).adjusted
    · exact .inr ⟨not_lt.mp (mt hlarge.mp (by omega)), if_pos hover⟩
    · exact .inl ⟨hlarge.mpr (by omega), _, if_neg hover, rfl⟩

/-- A shifted number is the limited one, when the shift is one and the limits hold it. -/
theorem scaleb_eq_ok_iff {x : Decimal} {n : ℤ} {q : ℚ} :
    (∃ y, x.scaleb n = .ok y ∧ y.toRat = q) ↔
      |n| ≤ maxJump ∧ |limited (x.toRat * 10 ^ n)| < 10 ^ (emax + 1) ∧
        limited (x.toRat * 10 ^ n) = q := by
  rw [scaleb, ← toRat_shift]
  by_cases hjump : maxJump < |n|
  · rw [if_pos hjump]
    refine ⟨?_, fun h => absurd h.1 (not_le.mpr hjump)⟩
    rintro ⟨_, h, -⟩
    cases h
  rw [if_neg hjump]
  rcases finalize_cases ⟨x.coeff, x.exp + n⟩ with ⟨hlt, y, hy, hvalue⟩ | ⟨hge, herror⟩
  · rw [hy]
    constructor
    · rintro ⟨_, h, rfl⟩
      cases h
      exact ⟨not_lt.mp hjump, hlt, hvalue.symm⟩
    · rintro ⟨-, -, rfl⟩
      exact ⟨y, rfl, hvalue⟩
  · rw [herror]
    refine ⟨?_, fun h => absurd h.2.1 (not_lt.mpr hge)⟩
    rintro ⟨_, h, -⟩
    cases h

/-- The limits leave an integer as it is rounded. -/
theorem limited_intCast (n : ℤ) : limited n = rounded n := by
  rcases eq_or_ne n 0 with rfl | hne
  · rw [Int.cast_zero, limited_zero, rounded_zero]
  · have hone : (1 : ℚ) ≤ |(n : ℚ)| := by exact_mod_cast Int.one_le_abs hne
    have hpow : (10 : ℚ) ^ emin ≤ 1 := zpow_le_one_of_nonpos₀ (by norm_num) (by decide)
    rw [limited, if_neg (not_lt.mpr (hpow.trans hone))]

end Decimal
