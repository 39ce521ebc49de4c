import Mathlib.Algebra.Order.Field.Power
import Mathlib.Algebra.Order.Field.Rat
import Mathlib.Data.Nat.Digits.Defs
import Mathlib.Tactic.Linarith
import Mathlib.Tactic.Positivity

/-!
# Decimal numbers

Decimal floating-point numbers of 28 digits, rounded half to even : the General Decimal
Arithmetic that programs compute prices with. A number keeps its exponent, so that
`1.50` and `1.5` are different numbers of one value (`toRat`); the order compares the
values. The signs of zeros are left out, and the limits of the exponent but for `scaleb`,
which a number of any exponent can be given to : a result below the normal numbers is rounded
at the smallest exponent, and one above the largest raises.

Rounding keeps the bounds that are whole numbers of at most 28 digits (`fix_le`,
`quantize_le`), which bounds what a computation can return without following it.
-/

/-- The number `coeff * 10 ^ exp`. -/
structure Decimal where
  coeff : ℤ
  exp : ℤ
  deriving DecidableEq, Repr

namespace Decimal

/-- The digits of a result. -/
def precision : ℕ := 28

/-- The number of decimal digits, one for zero. -/
def digitCount (n : ℕ) : ℕ := (Nat.toDigits 10 n).length

/-- The quotient rounded to the nearest integer, to the even one of two. -/
def roundHalfEven (n d : ℕ) : ℕ :=
  let q := n / d
  let r := n % d
  if d < 2 * r ∨ (2 * r = d ∧ q % 2 = 1) then q + 1 else q

/-- The number with at most 28 digits. -/
def fix (x : Decimal) : Decimal :=
  let excess := digitCount x.coeff.natAbs - precision
  if excess = 0 then x
  else
    let rounded := roundHalfEven x.coeff.natAbs (10 ^ excess)
    -- A carry through all the digits leaves one more, a zero.
    if precision < digitCount rounded then
      ⟨x.coeff.sign * (rounded / 10 : ℕ), x.exp + excess + 1⟩
    else ⟨x.coeff.sign * rounded, x.exp + excess⟩

/-! ## Arithmetic -/

/-- The coefficient at a smaller exponent. -/
def scaled (x : Decimal) (exp : ℤ) : ℤ := x.coeff * 10 ^ (x.exp - exp).toNat

def ofInt (n : ℤ) : Decimal := ⟨n, 0⟩

def zero : Decimal := ofInt 0
def one : Decimal := ofInt 1

/-- A literal with two places. -/
def hundredths (n : ℤ) : Decimal := ⟨n, -2⟩

/-- A literal with three places. -/
def thousandths (n : ℤ) : Decimal := ⟨n, -3⟩

def neg (x : Decimal) : Decimal := fix ⟨-x.coeff, x.exp⟩

def abs (x : Decimal) : Decimal := fix ⟨x.coeff.natAbs, x.exp⟩

def add (x y : Decimal) : Decimal :=
  let exp := min x.exp y.exp
  fix ⟨x.scaled exp + y.scaled exp, exp⟩

def sub (x y : Decimal) : Decimal := add x ⟨-y.coeff, y.exp⟩

def mul (x y : Decimal) : Decimal := fix ⟨x.coeff * y.coeff, x.exp + y.exp⟩

/-- Divide a coefficient by ten, at most `n` times and while it is a multiple. -/
def stripZeros : ℕ → ℕ → ℤ → ℕ × ℤ
  | 0, coeff, exp => (coeff, exp)
  | n + 1, coeff, exp =>
    if coeff % 10 = 0 then stripZeros n (coeff / 10) (exp + 1) else (coeff, exp)

/-- The quotient, for `y ≠ 0` : enough digits for one rounding, the last one made sticky by
a remainder, and in the absence of one no more zeros than the exponents ask for. -/
def div (x y : Decimal) : Decimal :=
  let sign := x.coeff.sign * y.coeff.sign
  if x.coeff = 0 then ⟨0, x.exp - y.exp⟩
  else
    let a := x.coeff.natAbs
    let b := y.coeff.natAbs
    let shift : ℤ := (digitCount b : ℤ) - digitCount a + precision + 1
    let n := a * 10 ^ shift.toNat
    let d := b * 10 ^ (-shift).toNat
    let exp := x.exp - y.exp - shift
    let q := n / d
    if n % d = 0 then
      let (q, exp) := stripZeros shift.toNat q exp
      fix ⟨sign * q, exp⟩
    else fix ⟨sign * (if q % 5 = 0 then q + 1 else q : ℕ), exp⟩

instance : Add Decimal := ⟨add⟩
instance : Sub Decimal := ⟨sub⟩
instance : Mul Decimal := ⟨mul⟩
instance : Div Decimal := ⟨div⟩
instance : Neg Decimal := ⟨neg⟩

/-- The sum of the numbers, from zero on. -/
def sum (xs : List Decimal) : Decimal := xs.foldl (· + ·) zero

/-! ## The limits of the exponent -/

/-- The signals that raise. -/
inductive Signal where
  | invalidOperation
  | overflow
  deriving DecidableEq, Repr

/-- The largest exponent of a first digit. -/
def emax : ℤ := 999999

/-- The smallest exponent of the first digit of a normal number. -/
def emin : ℤ := -999999

/-- The smallest exponent. -/
def etiny : ℤ := emin - precision + 1

/-- The exponent of the first digit. -/
def adjusted (x : Decimal) : ℤ := x.exp + digitCount x.coeff.natAbs - 1

/-- The number at the smallest exponent, when its own is smaller. -/
def subnormal (x : Decimal) : Decimal :=
  if etiny ≤ x.exp then x
  else ⟨x.coeff.sign * roundHalfEven x.coeff.natAbs (10 ^ (etiny - x.exp).toNat), etiny⟩

/-- The number with at most 28 digits, within the limits of the exponent. -/
def finalize (x : Decimal) : Except Signal Decimal :=
  if x.coeff = 0 then .ok ⟨0, min (max x.exp etiny) emax⟩
  else if x.adjusted < emin then .ok x.subnormal
  else if emax < (fix x).adjusted then .error .overflow
  else .ok (fix x)

/-- The largest shift of `scaleb`. -/
def maxJump : ℤ := 2 * (emax + precision)

/-- `x * 10 ^ n`, rounded like every result. -/
def scaleb (x : Decimal) (n : ℤ) : Except Signal Decimal :=
  if maxJump < |n| then .error .invalidOperation else finalize ⟨x.coeff, x.exp + n⟩

example : scaleb ⟨1, -1000031⟩ 4 = .ok ⟨0, etiny⟩ := by decide +kernel

example : scaleb ⟨1, 999999⟩ 4 = .error .overflow := by decide +kernel

/-! ## Order -/

/-- The order of the values. -/
def le (x y : Decimal) : Prop :=
  let exp := min x.exp y.exp
  x.scaled exp ≤ y.scaled exp

instance : LE Decimal := ⟨le⟩
instance : LT Decimal := ⟨fun x y => ¬y ≤ x⟩

instance (x y : Decimal) : Decidable (x ≤ y) :=
  inferInstanceAs (Decidable (x.scaled (min x.exp y.exp) ≤ y.scaled (min x.exp y.exp)))

instance (x y : Decimal) : Decidable (x < y) := inferInstanceAs (Decidable (¬y ≤ x))

/-- The larger number, the first one of two equal ones. -/
def maxOf (x y : Decimal) : Decimal := if x < y then y else x

/-- The smaller number, the first one of two equal ones. -/
def minOf (x y : Decimal) : Decimal := if y < x then y else x

/-! ## Integers and text -/

/-- The number rounded to an integer, half to even. -/
def quantize (x : Decimal) : ℤ :=
  x.coeff.sign *
    (roundHalfEven (x.coeff.natAbs * 10 ^ x.exp.toNat) (10 ^ (-x.exp).toNat) : ℕ)

/-- The integer part, towards zero. -/
def truncate (x : Decimal) : ℤ :=
  (x.coeff * 10 ^ x.exp.toNat).tdiv (10 ^ (-x.exp).toNat)

/-- The least integer that is not smaller. -/
def ceil (x : Decimal) : ℤ :=
  -(-(x.coeff * 10 ^ x.exp.toNat) / 10 ^ (-x.exp).toNat)

/-- `2 ** n`, rounded like every result. -/
def twoPow (n : ℤ) : Decimal :=
  if 0 ≤ n then fix ⟨2 ^ n.toNat, 0⟩ else fix ⟨5 ^ (-n).toNat, n⟩

/-- Two numbers of one value. -/
def SameValue (x y : Decimal) : Prop := x ≤ y ∧ y ≤ x

instance (x y : Decimal) : Decidable (SameValue x y) := inferInstanceAs (Decidable (_ ∧ _))

/-- The text without an exponent. -/
def text (x : Decimal) : String :=
  let sign := if x.coeff < 0 then ['-'] else []
  let ds := Nat.toDigits 10 (x.coeff.natAbs * 10 ^ x.exp.toNat)
  let places := (-x.exp).toNat
  if places = 0 then String.ofList (sign ++ ds)
  else
    let ds := List.replicate (places + 1 - ds.length) '0' ++ ds
    String.ofList (sign ++ ds.take (ds.length - places) ++ '.' :: ds.drop (ds.length - places))

example : (div (ofInt 2) (ofInt 3)).text = "0.6666666666666666666666666667" := by decide +kernel

example : (div ⟨600, -2⟩ ⟨40, -1⟩).text = "1.5" := by decide +kernel

example : (⟨25, -1⟩ : Decimal).quantize = 2 := by decide +kernel

/-! ## Values -/

/-- The value of a number. -/
def toRat (x : Decimal) : ℚ := x.coeff * 10 ^ x.exp

theorem toRat_ofInt (n : ℤ) : (ofInt n).toRat = n := by
  simp [toRat, ofInt]

theorem toRat_eq_scaled {x : Decimal} {exp : ℤ} (h : exp ≤ x.exp) :
    x.toRat = x.scaled exp * 10 ^ exp := by
  have hshift : x.exp = ((x.exp - exp).toNat : ℤ) + exp := by omega
  calc x.toRat = x.coeff * 10 ^ (((x.exp - exp).toNat : ℤ) + exp) := by rw [← hshift, toRat]
    _ = x.coeff * ((10 : ℚ) ^ (x.exp - exp).toNat * 10 ^ exp) := by
      rw [zpow_add₀ (by norm_num), zpow_natCast]
    _ = x.scaled exp * 10 ^ exp := by
      rw [scaled]
      push_cast
      ring

/-- The order of the numbers is that of their values. -/
theorem le_iff_toRat_le {x y : Decimal} : x ≤ y ↔ x.toRat ≤ y.toRat := by
  have hpow : (0 : ℚ) < 10 ^ min x.exp y.exp := by positivity
  rw [toRat_eq_scaled (min_le_left x.exp y.exp), toRat_eq_scaled (min_le_right x.exp y.exp),
    mul_le_mul_iff_left₀ hpow, Int.cast_le]
  rfl

theorem lt_iff_toRat_lt {x y : Decimal} : x < y ↔ x.toRat < y.toRat := by
  rw [← not_le, ← le_iff_toRat_le]
  rfl

theorem toRat_maxOf (x y : Decimal) : (maxOf x y).toRat = max x.toRat y.toRat := by
  unfold maxOf
  split
  · rename_i h
    rw [max_eq_right (lt_iff_toRat_lt.mp h).le]
  · rename_i h
    rw [max_eq_left (not_lt.mp (mt lt_iff_toRat_lt.mpr h))]

theorem toRat_minOf (x y : Decimal) : (minOf x y).toRat = min x.toRat y.toRat := by
  unfold minOf
  split
  · rename_i h
    rw [min_eq_right (lt_iff_toRat_lt.mp h).le]
  · rename_i h
    rw [min_eq_left (not_lt.mp (mt lt_iff_toRat_lt.mpr h))]

/-! ## Rounding keeps whole bounds -/

theorem pow_le_of_lt_digitCount {n k : ℕ} (hk : 0 < k) (h : k < digitCount n) : 10 ^ k ≤ n := by
  by_contra hlt
  exact absurd (Nat.toDigits_length 10 n k hk (not_le.mp hlt)) (not_le.mpr h)

theorem roundHalfEven_le {n d m : ℕ} (hd : 0 < d) (h : n ≤ m * d) : roundHalfEven n d ≤ m := by
  have hdiv : d * (n / d) + n % d = n := Nat.div_add_mod n d
  simp only [roundHalfEven]
  split
  · have hrest : 0 < n % d := by omega
    have hlt : n / d * d < m * d := by
      rw [Nat.mul_comm (n / d)]
      omega
    exact Nat.lt_of_mul_lt_mul_right hlt
  · exact Nat.div_le_of_le_mul (by rwa [Nat.mul_comm])

theorem toRat_nonneg_iff {x : Decimal} : 0 ≤ x.toRat ↔ 0 ≤ x.coeff := by
  have hpow : (0 : ℚ) < 10 ^ x.exp := by positivity
  rw [toRat, mul_nonneg_iff_of_pos_right hpow, Int.cast_nonneg_iff]

/-- The coefficient of a number in bounds, at an exponent below zero. -/
theorem natAbs_le_of_toRat_le {x : Decimal} {m k : ℕ} (h₀ : 0 ≤ x.coeff) (h : x.toRat ≤ m)
    (hk : x.exp = -(k : ℤ)) : x.coeff.natAbs ≤ m * 10 ^ k := by
  rw [toRat, hk, zpow_neg, zpow_natCast, ← div_eq_mul_inv, div_le_iff₀ (by positivity)] at h
  have hcoeff : (x.coeff.natAbs : ℤ) = x.coeff := Int.natAbs_of_nonneg h₀
  have hcast : ((x.coeff.natAbs : ℤ) : ℚ) ≤ ((m * 10 ^ k : ℕ) : ℚ) := by
    rw [hcoeff]
    push_cast
    exact h
  exact_mod_cast hcast

theorem toRat_le_of_coeff_le {x : Decimal} {m k : ℕ} (hk : x.exp = -(k : ℤ))
    (h : x.coeff ≤ (m * 10 ^ k : ℕ)) : x.toRat ≤ m := by
  rw [toRat, hk, zpow_neg, zpow_natCast, ← div_eq_mul_inv, div_le_iff₀ (by positivity)]
  exact_mod_cast h

theorem fix_coeff_nonneg {x : Decimal} (h : 0 ≤ x.coeff) : 0 ≤ (fix x).coeff := by
  have hsign : 0 ≤ x.coeff.sign := Int.sign_nonneg_iff.mpr h
  simp only [fix]
  split
  · exact h
  · split <;> exact mul_nonneg hsign (Int.natCast_nonneg _)

/-- A number in bounds has a negative exponent, when it has too many digits. -/
theorem exp_neg_of_excess {x : Decimal} {m excess : ℕ} (hm : m < 10 ^ 27) (h₀ : 0 ≤ x.coeff)
    (h : x.toRat ≤ m) (hexcess : excess = digitCount x.coeff.natAbs - precision)
    (hne : excess ≠ 0) : ∃ k : ℕ, x.exp = -((excess + k + 1 : ℕ) : ℤ) := by
  have hdigits : 10 ^ (27 + excess) ≤ x.coeff.natAbs :=
    pow_le_of_lt_digitCount (by omega) (by unfold precision at hexcess; omega)
  have hcoeff : ((10 : ℚ) ^ (27 + excess)) ≤ x.coeff := by
    have hcast : ((10 ^ (27 + excess) : ℕ) : ℤ) ≤ x.coeff := by omega
    exact_mod_cast hcast
  by_contra hexp
  have hge : -(excess : ℤ) ≤ x.exp := by
    by_contra hlt
    exact hexp ⟨(-x.exp - excess - 1).toNat, by omega⟩
  have hpow : (10 : ℚ) ^ (-(excess : ℤ)) ≤ 10 ^ x.exp :=
    zpow_le_zpow_right₀ (by norm_num) hge
  have hvalue : (10 : ℚ) ^ 27 ≤ x.toRat := by
    calc (10 : ℚ) ^ 27 = 10 ^ (27 + excess) * 10 ^ (-(excess : ℤ)) := by
          rw [pow_add, zpow_neg, zpow_natCast, mul_assoc, mul_inv_cancel₀ (by positivity), mul_one]
      _ ≤ x.coeff * 10 ^ x.exp := mul_le_mul hcoeff hpow (by positivity) (by positivity)
  have hlt : (m : ℚ) < 10 ^ 27 := by exact_mod_cast hm
  exact absurd (hvalue.trans h) (not_le.mpr hlt)

/-- Rounding to 28 digits keeps a whole bound of fewer digits. -/
theorem fix_le {x : Decimal} {m : ℕ} (hm : m < 10 ^ 27) (h₀ : 0 ≤ x.coeff) (h : x.toRat ≤ m) :
    (fix x).toRat ≤ m := by
  simp only [fix]
  split
  · exact h
  · rename_i hne
    obtain ⟨k, hk⟩ := exp_neg_of_excess hm h₀ h rfl hne
    have hbound := natAbs_le_of_toRat_le h₀ h hk
    have hrounded : roundHalfEven x.coeff.natAbs
        (10 ^ (digitCount x.coeff.natAbs - precision)) ≤ m * 10 ^ (k + 1) := by
      refine roundHalfEven_le (by positivity) ?_
      calc x.coeff.natAbs ≤ m * 10 ^ (digitCount x.coeff.natAbs - precision + k + 1) := hbound
        _ = m * 10 ^ (k + 1) * 10 ^ (digitCount x.coeff.natAbs - precision) := by ring
    have hsign : x.coeff.sign ≤ 1 := by
      rcases Int.sign_trichotomy x.coeff with hs | hs | hs <;> omega
    have hcoeff : ∀ n : ℕ, x.coeff.sign * (n : ℤ) ≤ n := fun n =>
      mul_le_of_le_one_left (Int.natCast_nonneg n) hsign
    split
    · refine toRat_le_of_coeff_le (k := k) (by rw [hk]; push_cast; ring) ((hcoeff _).trans ?_)
      exact_mod_cast Nat.div_le_of_le_mul (hrounded.trans_eq (by ring))
    · refine toRat_le_of_coeff_le (k := k + 1) (by rw [hk]; push_cast; ring) ((hcoeff _).trans ?_)
      exact_mod_cast hrounded

/-- Rounding to an integer keeps whole bounds. -/
theorem quantize_le {x : Decimal} {m : ℕ} (h₀ : 0 ≤ x.coeff) (h : x.toRat ≤ m) :
    x.quantize ≤ m := by
  have hsign : x.coeff.sign ≤ 1 := by
    rcases Int.sign_trichotomy x.coeff with hs | hs | hs <;> omega
  have hrounded : roundHalfEven (x.coeff.natAbs * 10 ^ x.exp.toNat) (10 ^ (-x.exp).toNat) ≤ m := by
    refine roundHalfEven_le (by positivity) ?_
    obtain ⟨n, hexp | hexp⟩ := x.exp.eq_nat_or_neg
    · have hcast : ((x.coeff.natAbs * 10 ^ n : ℕ) : ℤ) ≤ m := by
        rw [toRat, hexp, zpow_natCast] at h
        push_cast
        rw [abs_of_nonneg h₀]
        exact_mod_cast h
      rw [hexp, Int.toNat_natCast, Int.toNat_neg_natCast, pow_zero, mul_one]
      exact_mod_cast hcast
    · rw [hexp, neg_neg, Int.toNat_natCast, Int.toNat_neg_natCast, pow_zero, mul_one]
      exact natAbs_le_of_toRat_le h₀ h hexp
  calc x.quantize ≤ _ := mul_le_of_le_one_left (Int.natCast_nonneg _) hsign
    _ ≤ m := by exact_mod_cast hrounded

theorem quantize_nonneg {x : Decimal} (h : 0 ≤ x.coeff) : 0 ≤ x.quantize :=
  mul_nonneg (Int.sign_nonneg_iff.mpr h) (Int.natCast_nonneg _)

end Decimal
