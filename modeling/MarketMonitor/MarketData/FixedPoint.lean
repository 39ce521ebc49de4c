import MarketMonitor.Library.Rounding
import MarketMonitor.MarketData.Provider

/-!
# Fixed-point columns

A price is stored as an integer number of ten-thousandths, when it is one : the number is
shifted by four places and compared with its integral value. The shift is a number of the
context, of 28 digits and a limited exponent, so that a number with more digits, or a smaller
exponent, is compared after it was rounded : it may be stored as another number
(`fixed_point_of_long_price`). This, and an integer the context does not hold, are the only
ways in which a column does not read back as what was stored (`fixed_point_holds_iff`).
Amounts are rounded first, and are off by half a ten-thousandth at most.
-/

namespace MarketMonitor

open Transaction Decimal

/-! ## The conversion -/

/-- An integer is returned when the limits of the context hold what is shifted, and that is the
integer. -/
theorem toScaledInteger_eq_ok_iff {value : Decimal} {scale n : ℤ} :
    toScaledInteger value scale = .ok n ↔
      0 ≤ scale ∧ scale ≤ maxJump ∧ |limited (value.toRat * 10 ^ scale)| < 10 ^ (emax + 1) ∧
        limited (value.toRat * 10 ^ scale) = n := by
  have hshift : 0 ≤ scale → ((∃ y, value.scaleb scale = .ok y ∧ y.toRat = n) ↔
      scale ≤ maxJump ∧ |limited (value.toRat * 10 ^ scale)| < 10 ^ (emax + 1) ∧
        limited (value.toRat * 10 ^ scale) = n) := by
    intro hscale
    rw [scaleb_eq_ok_iff, abs_of_nonneg hscale]
  simp only [toScaledInteger, except_bind_eq_ok, except_mapError_eq_ok, check_eq_ok, sameValue_iff,
    toRat_ofInt]
  constructor
  · rintro ⟨_, hscale, y, hy, _, hintegral, h⟩
    cases h
    exact ⟨hscale, (hshift hscale).mp ⟨y, hy, by rw [hintegral, truncate_eq hintegral]⟩⟩
  · rintro ⟨hscale, hlimits⟩
    obtain ⟨y, hy, hn⟩ := (hshift hscale).mpr hlimits
    refine ⟨(), hscale, y, hy, (), ?_, congrArg Except.ok (truncate_eq hn)⟩
    rw [quantize_eq, hn, roundEven_intCast]

/-- `from_scaled_integer(value, scale)`, and `_scaled` of a column. -/
def fromScaledInteger (value scale : ℤ) : Except Exn Decimal := do
  check (0 ≤ scale) (valueError "scale must be non-negative")
  ((Decimal.ofInt value).scaleb (-scale)).mapError signalError

/-- An integer of a column reads back without rounding. -/
theorem fromScaledInteger_of_fitsColumn {n : ℤ} (hn : FitsColumn n) :
    ∃ x, fromScaledInteger n 4 = .ok x ∧ x.toRat = n * 10 ^ (-4 : ℤ) := by
  obtain ⟨hlow, hhigh⟩ := hn
  have hlimited : limited (n * 10 ^ (-4 : ℤ)) = n * 10 ^ (-4 : ℤ) := by
    rcases eq_or_ne n 0 with rfl | hne
    · rw [Int.cast_zero, zero_mul, limited_zero]
    · rw [limited, if_neg, rounded_eq_self (abs_lt.mpr ⟨by omega, by omega⟩)]
      have hone : (1 : ℚ) ≤ |(n : ℚ)| := by exact_mod_cast Int.one_le_abs hne
      have hpow : (10 : ℚ) ^ emin ≤ 10 ^ (-4 : ℤ) := zpow_le_zpow_right₀ (by norm_num) (by decide)
      rw [abs_mul, abs_of_pos (by positivity : (0 : ℚ) < 10 ^ (-4 : ℤ)), not_lt]
      exact hpow.trans (le_mul_of_one_le_left (by positivity) hone)
  have hbound : |(n * 10 ^ (-4 : ℤ) : ℚ)| < 10 ^ (emax + 1) := by
    have habs : |(n : ℚ)| ≤ 10 ^ (19 : ℤ) := by
      have hint : |n| ≤ 10 ^ 19 := abs_le.mpr ⟨by omega, by omega⟩
      exact_mod_cast hint
    have hpow : (10 : ℚ) ^ (19 : ℤ) < 10 ^ (emax + 1) :=
      zpow_lt_zpow_right₀ (by norm_num) (by decide)
    rw [abs_mul, abs_of_pos (by positivity : (0 : ℚ) < 10 ^ (-4 : ℤ))]
    have hsmall : (10 : ℚ) ^ (-4 : ℤ) ≤ 1 := zpow_le_one_of_nonpos₀ (by norm_num) (by decide)
    exact (mul_le_of_le_one_right (abs_nonneg _) hsmall).trans_lt (habs.trans_lt hpow)
  obtain ⟨y, hy, hvalue⟩ := scaleb_eq_ok_iff (x := ofInt n) (n := -4)
    (q := n * 10 ^ (-4 : ℤ)) |>.mpr (by
      rw [toRat_ofInt, hlimited]
      exact ⟨by decide, hbound, rfl⟩)
  refine ⟨y, ?_, hvalue⟩
  rw [fromScaledInteger, check, if_pos (by decide)]
  exact except_mapError_eq_ok.mpr hy

/-! ## What the columns keep -/

/-- What a fixed-point column is for. -/
structure FixedPointHolds (value : Decimal) (scale : ℤ) : Prop where
  /-- An integer that is returned is the number at the scale. -/
  exact : ∀ n, toScaledInteger value scale = .ok n → (n : ℚ) / 10 ^ scale = value.toRat
  /-- A number is refused exactly when it is not an integer at the scale. -/
  raises : (∃ e, toScaledInteger value scale = .error e) ↔
    ∀ n : ℤ, value.toRat * 10 ^ scale ≠ n
  /-- A stored price, which has four places, reads back as the price. -/
  price : scale = 4 → ∀ n, toScaledInteger value scale = .ok n → FitsColumn n →
    ∃ x, fromScaledInteger n scale = .ok x ∧ x.toRat = value.toRat
  /-- A stored amount reads back within half of its last place. -/
  amount : ∀ n, amountStorage (some value) = .ok (some n) →
    ∃ x, fromScaledInteger n 4 = .ok x ∧ |x.toRat - value.toRat| ≤ 1 / 2 * 10 ^ (-4 : ℤ)

/-- The context holds a number : the shift is one, and the number is not above the largest. -/
def ContextHolds (value : Decimal) (scale : ℤ) : Prop :=
  scale ≤ maxJump ∧ |limited (value.toRat * 10 ^ scale)| < 10 ^ (emax + 1)

/-- The number at the scale is an integer the context holds, or the context rounds it, when it
holds it, to no integer. -/
structure RoundsToNoOther (value : Decimal) (scale : ℤ) : Prop where
  held : ∀ n : ℤ, value.toRat * 10 ^ scale = n → ContextHolds value scale
  other : ContextHolds value scale → ∀ n : ℤ, limited (value.toRat * 10 ^ scale) = n →
    value.toRat * 10 ^ scale = n

/-- What is stored of an amount. -/
theorem amountStorage_eq_ok {value : Decimal} {n : ℤ}
    (h : amountStorage (some value) = .ok (some n)) :
    FitsColumn n ∧ n = roundEven (value.toRat * 10 ^ (4 : ℤ)) := by
  simp only [amountStorage, except_bind_eq_ok, check_eq_ok, toScaledInteger_eq_ok_iff] at h
  obtain ⟨_, hdigits, scaled, ⟨-, -, -, hscaled⟩, _, hfits, h⟩ := h
  cases h
  refine ⟨hfits, ?_⟩
  rw [quantize_eq, toRat_shift] at hdigits hscaled
  generalize roundEven (value.toRat * 10 ^ (4 : ℤ)) = q at *
  have hlt : |q| < 10 ^ 28 := by
    have hpow : 10 ^ digitCount q.natAbs ≤ 10 ^ 28 := Nat.pow_le_pow_right (by norm_num) hdigits
    have hq := (lt_pow_digitCount q.natAbs).trans_le hpow
    rw [Int.abs_eq_natAbs]
    exact_mod_cast hq
  have hvalue : (⟨q, -4⟩ : Decimal).toRat * 10 ^ (4 : ℤ) = q * 10 ^ (0 : ℤ) := by
    rw [toRat, mul_assoc, ← zpow_add₀ (by norm_num)]
    rfl
  rw [hvalue, zpow_zero, mul_one, limited_intCast, rounded_intCast hlt] at hscaled
  exact_mod_cast hscaled.symm

/-- An amount is off by half a ten-thousandth at most, whatever its digits are. -/
theorem amount_reads_back {value : Decimal} {n : ℤ}
    (h : amountStorage (some value) = .ok (some n)) :
    ∃ x, fromScaledInteger n 4 = .ok x ∧
      |x.toRat - value.toRat| ≤ 1 / 2 * 10 ^ (-4 : ℤ) := by
  obtain ⟨hfits, hn⟩ := amountStorage_eq_ok h
  obtain ⟨x, hx, hvalue⟩ := fromScaledInteger_of_fitsColumn hfits
  refine ⟨x, hx, ?_⟩
  have herror := abs_roundEven_sub_le (value.toRat * 10 ^ (4 : ℤ))
  have hdiff : x.toRat - value.toRat =
      (roundEven (value.toRat * 10 ^ (4 : ℤ)) - value.toRat * 10 ^ (4 : ℤ)) * 10 ^ (-4 : ℤ) := by
    rw [hvalue, hn, sub_mul, mul_assoc, ← zpow_add₀ (by norm_num)]
    norm_num
  rw [hdiff, abs_mul, abs_of_pos (show (0 : ℚ) < 10 ^ (-4 : ℤ) by positivity)]
  exact mul_le_mul_of_nonneg_right herror (by positivity)

/-- The columns keep what they should of a number exactly when the context holds an integer and
makes none of what is not one. -/
theorem fixed_point_holds_iff (value : Decimal) (scale : ℤ) (hscale : 0 ≤ scale) :
    FixedPointHolds value scale ↔ RoundsToNoOther value scale := by
  have hpow : (10 : ℚ) ^ scale ≠ 0 := by positivity
  constructor
  · intro h
    constructor
    case held =>
      intro n hn
      cases hresult : toScaledInteger value scale with
      | error e => exact absurd hn (h.raises.mp ⟨e, hresult⟩ n)
      | ok m =>
        obtain ⟨-, hjump, hlimit, -⟩ := toScaledInteger_eq_ok_iff.mp hresult
        exact ⟨hjump, hlimit⟩
    case other =>
      intro hholds n hn
      have hexact := h.exact n (toScaledInteger_eq_ok_iff.mpr ⟨hscale, hholds.1, hholds.2, hn⟩)
      rw [← hexact, div_mul_cancel₀ _ hpow]
  · intro h
    have hexact : ∀ n, toScaledInteger value scale = .ok n → value.toRat * 10 ^ scale = n := by
      intro n hn
      obtain ⟨-, hjump, hlimit, hlimited⟩ := toScaledInteger_eq_ok_iff.mp hn
      exact h.other ⟨hjump, hlimit⟩ n hlimited
    have hvalue : ∀ n, toScaledInteger value scale = .ok n → (n : ℚ) / 10 ^ scale = value.toRat :=
      fun n hn => by rw [← hexact n hn, mul_div_cancel_right₀ _ hpow]
    constructor
    case exact => exact hvalue
    case raises =>
      constructor
      · rintro ⟨e, herror⟩ n hn
        -- The integer is rounded to an integer, which is itself.
        obtain ⟨m, hm⟩ := exists_rounded_intCast n
        have hlimited : limited (value.toRat * 10 ^ scale) = m := by
          rw [hn, limited_intCast]
          exact hm
        obtain ⟨hjump, hlimit⟩ := h.held n hn
        cases herror.symm.trans
          (toScaledInteger_eq_ok_iff.mpr ⟨hscale, hjump, hlimit, hlimited⟩)
      · intro hnone
        cases hresult : toScaledInteger value scale with
        | error e => exact ⟨e, rfl⟩
        | ok n => exact absurd (hexact n hresult) (hnone n)
    case price =>
      rintro rfl n hn hfits
      obtain ⟨x, hx, hread⟩ := fromScaledInteger_of_fitsColumn hfits
      refine ⟨x, hx, ?_⟩
      rw [hread, ← hvalue n hn, zpow_neg, div_eq_mul_inv]
    case amount => exact fun n => amount_reads_back

/-- A price of 33 digits, at its place in the column a little above 100000. -/
def longPrice : Decimal := ⟨10 * 10 ^ 31 + 1, -31⟩

/-- A price of a quote. -/
theorem fixed_point_holds_of_price :
    FixedPointHolds ⟨1025, -2⟩ 4 := by
  have hvalue : (⟨1025, -2⟩ : Decimal).toRat * 10 ^ (4 : ℤ) = (102500 : ℤ) := by
    rw [toRat, mul_assoc, ← zpow_add₀ (by norm_num)]
    norm_num
  have hlimited : limited (102500 : ℤ) = (102500 : ℤ) := by
    rw [limited_intCast, rounded_intCast (by decide)]
  refine (fixed_point_holds_iff ⟨1025, -2⟩ 4 (by decide)).mpr ⟨fun n hn => ⟨by decide, ?_⟩,
    fun _ n hn => ?_⟩
  · rw [hvalue, hlimited]
    have hpow : (10 : ℚ) ^ (6 : ℤ) ≤ 10 ^ (emax + 1) :=
      zpow_le_zpow_right₀ (by norm_num) (by decide)
    norm_num at hpow ⊢
    linarith
  · rw [hvalue, hlimited] at hn
    rw [hvalue, hn]

/-- The long price is stored as ten yuan. -/
theorem fixed_point_of_long_price : ¬FixedPointHolds longPrice 4 := by
  intro h
  have hstored : toScaledInteger longPrice 4 = .ok 100000 := by decide +kernel
  have hexact := h.exact _ hstored
  rw [longPrice, toRat] at hexact
  norm_num at hexact

end MarketMonitor
