import Mathlib.Algebra.Order.Floor.Semifield
import Mathlib.Algebra.Order.Group.MinMax
import MarketMonitor.Library.LocationStatistics
import MarketMonitor.Library.Rounding
import MarketMonitor.Analysis.MarketMetrics

/-!
# The laws of the robust return

The robust return in any arithmetic of the rational numbers, given by its rounding : with
none it is a statistic of location (`isLocation_exactReturn`) that the values above its
upper percentile cannot move, with that of the decimal numbers it is the one the producer
computes (`toRat_robustReturn`). The two differ by the rounding errors of the intermediate
results (`RoundsWithin.robust_error`), which is enough to leave the range of the values.
-/

namespace MarketMonitor

open Decimal LocationStatistics

/-! ## The robust return of an arithmetic -/

variable (round : ℚ → ℚ)

/-- `_median`, of a sorted list. -/
def medianWith (ordered : List ℚ) : ℚ :=
  let middle := ordered.length / 2
  if ordered.length % 2 = 1 then ordered.getD middle 0
  else round (round (ordered.getD (middle - 1) 0 + ordered.getD middle 0) / 2)

/-- The value a percentile at a position lies at or above, and the next one. -/
def percentileBounds (length : ℕ) (position : ℚ) : ℕ × ℕ :=
  (⌊position⌋₊, min (⌊position⌋₊ + 1) (length - 1))

/-- `_percentile` -/
def percentileWith (ordered : List ℚ) (proportion : ℚ) : ℚ :=
  let position := round ((ordered.length - 1 : ℕ) * proportion)
  let (lower, upper) := percentileBounds ordered.length position
  round (ordered.getD lower 0 +
    round (round (ordered.getD upper 0 - ordered.getD lower 0) * round (position - lower)))

/-- The sum from zero on, rounded after each value. -/
def sumWith (values : List ℚ) : ℚ := values.foldl (fun total value => round (total + value)) 0

/-- `MarketMetricProducer.robust_return` -/
def robustReturnWith (values : List ℚ) : ℚ :=
  let ordered := sorted values
  if ordered.length < 20 then medianWith round ordered
  else
    let lower := percentileWith round ordered (5 / 100)
    let upper := percentileWith round ordered (95 / 100)
    round (sumWith round (ordered.map (clamp lower upper)) / ordered.length)

/-- The robust return in exact arithmetic. -/
def exactReturn : List ℚ → ℚ := robustReturnWith id

/-! ## The decimal numbers -/

/-- Sorting commutes with the values. -/
theorem sorted_map_toRat (values : List Decimal) :
    (sortedDecimals values).map toRat = sorted (values.map toRat) := by
  have hsorted : (sortedDecimals values).Pairwise (· ≤ ·) := by
    have : Std.Total fun x y : Decimal => x ≤ y :=
      ⟨fun x y => by simpa only [le_iff_toRat_le] using le_total x.toRat y.toRat⟩
    have : IsTrans Decimal fun x y => x ≤ y :=
      ⟨fun x y z => by simpa only [le_iff_toRat_le] using le_trans⟩
    exact List.pairwise_insertionSort _ values
  refine (((List.perm_insertionSort _ values).map toRat).trans
    (sorted_perm _).symm).eq_of_pairwise' ?_ (pairwise_sorted _)
  exact hsorted.map toRat fun x y h => le_iff_toRat_le.mp h

theorem toRat_getD (values : List Decimal) (k : ℕ) :
    (values.getD k zero).toRat = (values.map toRat).getD k 0 := by
  rw [List.getD_eq_getElem?_getD, List.getD_eq_getElem?_getD, List.getElem?_map]
  cases values[k]? with
  | none => simp [zero, toRat_ofInt]
  | some value => rfl

/-- The index of a percentile. -/
theorem toNat_truncate {x : Decimal} (hx : 0 ≤ x.toRat) : x.truncate.toNat = ⌊x.toRat⌋₊ := by
  have hcoeff : 0 ≤ x.coeff := by
    have := nonneg_of_mul_nonneg_left hx (zpow_pos (by norm_num) x.exp)
    exact_mod_cast this
  obtain ⟨n, hn⟩ := Int.eq_ofNat_of_zero_le hcoeff
  have hquotient : x.toRat = (n * 10 ^ x.exp.toNat : ℕ) / (10 ^ (-x.exp).toNat : ℕ) := by
    rw [toRat, hn]
    push_cast
    rw [mul_div_assoc, ← zpow_natCast, ← zpow_natCast, ← zpow_sub₀ (by norm_num)]
    congr 2
    omega
  have htruncate : x.truncate = (n * 10 ^ x.exp.toNat / 10 ^ (-x.exp).toNat : ℕ) := by
    rw [truncate, hn]
    push_cast
    exact Int.tdiv_eq_ediv_of_nonneg (by positivity)
  rw [htruncate, Int.toNat_natCast, hquotient, Nat.floor_div_eq_div]

/-- The percentile, with its operations rounded. -/
theorem toRat_percentile {values : List Decimal} (hvalues : values ≠ []) {proportion : Decimal}
    (hproportion : 0 ≤ proportion.toRat) :
    (percentile values proportion).toRat =
      percentileWith rounded (values.map toRat) proportion.toRat := by
  have hlength : (values.length - 1 : ℤ) = (values.length - 1 : ℕ) := by
    have := List.length_pos_iff.mpr hvalues
    omega
  have hposition : (ofInt (values.length - 1) * proportion).toRat =
      rounded ((values.length - 1 : ℕ) * proportion.toRat) := by
    rw [toRat_mul, toRat_ofInt, hlength, Int.cast_natCast]
  have hnonneg : 0 ≤ (ofInt (values.length - 1) * proportion).toRat := by
    rw [hposition]
    exact rounded_nonneg (mul_nonneg (Nat.cast_nonneg _) hproportion)
  simp only [percentile, percentileWith, percentileBounds, toRat_add, toRat_mul, toRat_sub,
    toRat_ofInt, toRat_getD, List.length_map]
  rw [toNat_truncate hnonneg, hposition, hlength]
  simp only [Int.cast_natCast]

theorem length_sortedDecimals (values : List Decimal) :
    (sortedDecimals values).length = values.length :=
  List.length_insertionSort _ _

/-- The median, with its operations rounded. -/
theorem toRat_median {values : List Decimal} (hvalues : values ≠ []) :
    ∃ m, median values = some m ∧ m.toRat = medianWith rounded (sorted (values.map toRat)) := by
  have hpos : 0 < (sortedDecimals values).length := by
    rw [length_sortedDecimals]
    exact List.length_pos_iff.mpr hvalues
  have hget : ∀ k, k < (sortedDecimals values).length →
      ∃ v, (sortedDecimals values)[k]? = some v ∧
        v.toRat = (sorted (values.map toRat)).getD k 0 := by
    intro k hk
    refine ⟨_, List.getElem?_eq_getElem hk, ?_⟩
    rw [← sorted_map_toRat, List.getD_eq_getElem _ _ (by rwa [List.length_map]),
      List.getElem_map]
  have hlength : (sorted (values.map toRat)).length = (sortedDecimals values).length := by
    rw [← sorted_map_toRat, List.length_map]
  simp only [median, medianWith, if_neg hvalues, hlength]
  split
  case isTrue => exact hget _ (Nat.div_lt_self hpos (by decide))
  case isFalse heven =>
    obtain ⟨a, ha, harat⟩ := hget ((sortedDecimals values).length / 2 - 1) (by omega)
    obtain ⟨b, hb, hbrat⟩ := hget ((sortedDecimals values).length / 2) (by omega)
    refine ⟨(a + b) / ofInt 2, by rw [ha, hb]; rfl, ?_⟩
    rw [toRat_div _ (by decide), toRat_add, toRat_ofInt, harat, hbrat]
    norm_num

/-- The sum, with its operations rounded. -/
theorem toRat_sum (values : List Decimal) :
    (sum values).toRat = sumWith rounded (values.map toRat) := by
  have hfold : ∀ (values : List Decimal) (total : Decimal), (values.foldl (· + ·) total).toRat =
      (values.map toRat).foldl (fun total value => rounded (total + value)) total.toRat := by
    intro values
    induction values with
    | nil => exact fun _ => rfl
    | cons value values ih =>
      intro total
      rw [List.foldl_cons, ih, toRat_add]
      rfl
  rw [sum, hfold, sumWith, zero, toRat_ofInt, Int.cast_zero]

/-- The producer computes the robust return of the decimal arithmetic. -/
theorem toRat_robustReturn {values : List Decimal} (hvalues : values ≠ []) :
    ∃ r, robustReturn values = some r ∧
      r.toRat = robustReturnWith rounded (values.map toRat) := by
  have hordered : sortedDecimals values ≠ [] := by
    rw [← List.length_pos_iff, length_sortedDecimals]
    exact List.length_pos_iff.mpr hvalues
  have hsorted := sorted_map_toRat values
  have hlength : (sorted (values.map toRat)).length = (sortedDecimals values).length := by
    rw [← hsorted, List.length_map]
  have hproportion : ∀ n : ℤ, (hundredths n).toRat = n / 100 := fun n => by
    rw [hundredths, toRat]
    norm_num
    ring
  simp only [robustReturn, robustReturnWith, if_neg hvalues, hlength]
  split
  case isTrue =>
    obtain ⟨m, hm, hrat⟩ := toRat_median hordered
    refine ⟨m, hm, ?_⟩
    rw [hrat, hsorted, sorted_eq_of_perm (sorted_perm _)]
  case isFalse hlong =>
    refine ⟨_, rfl, ?_⟩
    have hcoeff : (ofInt (sortedDecimals values).length).coeff ≠ 0 := by
      change ((sortedDecimals values).length : ℤ) ≠ 0
      omega
    rw [toRat_div _ hcoeff, toRat_sum, toRat_ofInt, List.map_map, ← hsorted, List.map_map]
    have hclamp : (toRat ∘ fun value => minOf (percentile (sortedDecimals values) (hundredths 95))
          (maxOf (percentile (sortedDecimals values) (hundredths 5)) value)) =
        clamp (percentileWith rounded ((sortedDecimals values).map toRat) (5 / 100))
          (percentileWith rounded ((sortedDecimals values).map toRat) (95 / 100)) ∘ toRat := by
      funext value
      simp only [Function.comp_apply, toRat_minOf, toRat_maxOf, clamp]
      rw [toRat_percentile hordered (by rw [hproportion]; norm_num),
        toRat_percentile hordered (by rw [hproportion]; norm_num), hproportion, hproportion]
      norm_num
    rw [hclamp, Int.cast_natCast]

/-! ## Exact arithmetic -/

variable {n : ℕ}

theorem exact_percentile {xs : List ℚ} (hlength : xs.length = n) (proportion : ℚ) :
    percentileWith id (sorted xs) proportion =
      orderStatistic (percentileBounds n ((n - 1 : ℕ) * proportion)).1 xs +
        (orderStatistic (percentileBounds n ((n - 1 : ℕ) * proportion)).2 xs -
          orderStatistic (percentileBounds n ((n - 1 : ℕ) * proportion)).1 xs) *
        ((n - 1 : ℕ) * proportion - ⌊((n - 1 : ℕ) * proportion : ℚ)⌋₊) := by
  rw [percentileWith, length_sorted, hlength]
  rfl

/-- A percentile is a statistic of location. -/
theorem isLocation_percentile (hn : n ≠ 0) {proportion : ℚ} (hlow : 0 ≤ proportion)
    (hhigh : proportion ≤ 1) :
    IsLocation n fun xs => percentileWith id (sorted xs) proportion := by
  have hposition : (0 : ℚ) ≤ (n - 1 : ℕ) * proportion := mul_nonneg (Nat.cast_nonneg _) hlow
  have hle : ((n - 1 : ℕ) * proportion : ℚ) ≤ (n - 1 : ℕ) :=
    mul_le_of_le_one_right (Nat.cast_nonneg _) hhigh
  have hfloor := Nat.floor_le_of_le hle
  refine ((isLocation_orderStatistic ?_).combine (isLocation_orderStatistic ?_)
    (sub_nonneg.mpr (Nat.floor_le hposition)) ?_).congr fun xs hlength =>
      exact_percentile hlength proportion
  · simp only [percentileBounds]
    omega
  · simp only [percentileBounds]
    omega
  · linarith [Nat.lt_floor_add_one ((n - 1 : ℕ) * proportion : ℚ)]

/-- The median is a statistic of location. -/
theorem isLocation_median (hn : n ≠ 0) : IsLocation n fun xs => medianWith id (sorted xs) := by
  have hlower := isLocation_orderStatistic (K := ℚ) (show n / 2 - 1 < n by omega)
  have hupper := isLocation_orderStatistic (K := ℚ) (show n / 2 < n by omega)
  rcases Nat.mod_two_eq_zero_or_one n with heven | hodd
  · refine (hlower.combine hupper (f := 1 / 2) (by norm_num) (by norm_num)).congr
      fun xs hlength => ?_
    simp only [medianWith, length_sorted, hlength, heven, zero_ne_one, if_false, id]
    rw [orderStatistic, orderStatistic]
    ring
  · refine hupper.congr fun xs hlength => ?_
    simp only [medianWith, length_sorted, hlength, hodd, if_true]
    rfl

theorem exactReturn_eq_mean {xs : List ℚ} (hlong : 20 ≤ xs.length) :
    exactReturn xs = mean ((sorted xs).map (clamp (percentileWith id (sorted xs) (5 / 100))
      (percentileWith id (sorted xs) (95 / 100)))) := by
  have hsum : ∀ values : List ℚ, sumWith id values = values.sum := fun values => by
    rw [sumWith, List.sum_eq_foldl]
    rfl
  simp only [exactReturn, robustReturnWith, length_sorted, if_neg hlong.not_gt, hsum, id]
  rw [mean, List.length_map, length_sorted]

theorem exactReturn_of_long {xs : List ℚ} (hlong : 20 ≤ xs.length) :
    exactReturn xs = clampedMean (fun xs => percentileWith id (sorted xs) (5 / 100))
      (fun xs => percentileWith id (sorted xs) (95 / 100)) xs := by
  rw [exactReturn_eq_mean hlong, clampedMean, mean, mean, ((sorted_perm xs).map _).sum_eq,
    ((sorted_perm xs).map _).length_eq]

/-- The robust return is a statistic of location. -/
theorem isLocation_exactReturn (hn : n ≠ 0) : IsLocation n exactReturn := by
  rcases lt_or_ge n 20 with hshort | hlong
  · refine (isLocation_median hn).congr fun xs hlength => ?_
    simp only [exactReturn, robustReturnWith, length_sorted, hlength, if_pos hshort]
  · refine ((isLocation_percentile hn (by norm_num) (by norm_num)).clampedMean
      (isLocation_percentile hn (by norm_num) (by norm_num)) hn).congr fun xs hlength =>
        exactReturn_of_long (by rwa [hlength])

/-- The index of the upper order statistic of the 95% percentile. -/
def upperIndex (length : ℕ) : ℕ :=
  (percentileBounds length ((length - 1 : ℕ) * (95 / 100))).2

/-- Raising the values above the upper order statistic of the 95% percentile. -/
theorem exactReturn_of_raised {xs ys : List ℚ} (hlong : 20 ≤ xs.length) {u : ℚ}
    (hu : (sorted xs)[upperIndex xs.length]? = some u)
    (h : List.Forall₂ (fun x y => y = x ∨ (u < x ∧ u < y)) xs ys) :
    exactReturn ys = exactReturn xs := by
  have hlength : ys.length = xs.length := h.length_eq.symm
  have horder : ∀ {k}, k ≤ upperIndex xs.length → orderStatistic k ys = orderStatistic k xs :=
    fun {k} hk => by
      rw [orderStatistic, orderStatistic, List.getD_eq_getElem?_getD, List.getD_eq_getElem?_getD,
        sorted_eq_of_raised hu h hk]
  have hposition : ((xs.length - 1 : ℕ) * (95 / 100) : ℚ) ≤ (xs.length - 1 : ℕ) :=
    mul_le_of_le_one_right (Nat.cast_nonneg _) (by norm_num)
  have hbound := Nat.floor_le_of_le hposition
  have hpercentile : ∀ {proportion : ℚ}, proportion ≤ 95 / 100 →
      percentileWith id (sorted ys) proportion = percentileWith id (sorted xs) proportion := by
    intro proportion hle
    have hfloor := Nat.floor_mono
      (mul_le_mul_of_nonneg_left hle (Nat.cast_nonneg (α := ℚ) (xs.length - 1)))
    rw [exact_percentile hlength, exact_percentile rfl, horder, horder]
    · simp only [percentileBounds, upperIndex]
      omega
    · simp only [percentileBounds, upperIndex]
      omega
  rw [exactReturn_of_long hlong, exactReturn_of_long (hlength ▸ hlong)]
  refine clampedMean_eq_of_raised (hpercentile (by norm_num)) (hpercentile le_rfl) ?_ h
  -- The percentile lies between its two order statistics, the upper one of which is `u`.
  have hupper : orderStatistic (upperIndex xs.length) xs = u := by
    rw [orderStatistic, List.getD_eq_getElem?_getD, hu, Option.getD_some]
  have hle : orderStatistic (percentileBounds xs.length ((xs.length - 1 : ℕ) * (95 / 100))).1 xs ≤
      orderStatistic (upperIndex xs.length) xs := by
    apply orderStatistic_le <;> simp only [percentileBounds, upperIndex] <;> omega
  simp only [exact_percentile rfl]
  rw [← upperIndex, hupper]
  rw [hupper] at hle
  have hfraction := Nat.lt_floor_add_one ((xs.length - 1 : ℕ) * (95 / 100) : ℚ)
  have hpart := mul_le_of_le_one_right (sub_nonneg.mpr hle) (sub_le_iff_le_add'.mpr hfraction.le)
  linarith

/-! ## Rounding errors -/

section Errors

variable {round : ℚ → ℚ} {ε M c : ℚ}

/-- Each rounding errs by at most the part `ε` of the number. -/
structure RoundsWithin (round : ℚ → ℚ) (ε : ℚ) : Prop where
  nonneg : 0 ≤ ε
  small : ε ≤ 1 / 10
  error : ∀ q, |round q - q| ≤ ε * |q|

/-- The hundredths up to a bound are not rounded. -/
def ExactHundredths (round : ℚ → ℚ) (bound : ℕ) : Prop :=
  ∀ k : ℕ, k ≤ bound → round (k / 100) = k / 100

namespace RoundsWithin

theorem error_le (h : RoundsWithin round ε) {q B : ℚ} (hq : |q| ≤ B) : |round q - q| ≤ ε * B :=
  (h.error q).trans (mul_le_mul_of_nonneg_left hq h.nonneg)

/-- How far the rounded median is from the median. -/
theorem median_error (h : RoundsWithin round ε) {ordered : List ℚ}
    (hvalues : ∀ k, |ordered.getD k 0| ≤ M) :
    |medianWith round ordered - medianWith id ordered| ≤ 3 * (M * ε) := by
  have hM : 0 ≤ M := (abs_nonneg _).trans (hvalues 0)
  have hδ : 0 ≤ M * ε := mul_nonneg hM h.nonneg
  have hεδ : M * ε ≤ M * (1 / 10) := mul_le_mul_of_nonneg_left h.small hM
  simp only [medianWith, id]
  split
  case isTrue =>
    rw [sub_self, abs_zero]
    linarith
  case isFalse =>
    have ha := hvalues (ordered.length / 2 - 1)
    have hb := hvalues (ordered.length / 2)
    generalize ordered.getD (ordered.length / 2 - 1) 0 = a at ha ⊢
    generalize ordered.getD (ordered.length / 2) 0 = b at hb ⊢
    have hsum := h.error_le ((abs_add_le a b).trans (add_le_add ha hb))
    have hhalf : |round (a + b) / 2| ≤ 2 * M := by
      rw [abs_le] at ha hb hsum ⊢
      constructor <;> linarith
    have hquotient := h.error_le hhalf
    rw [abs_le] at hsum hquotient ⊢
    constructor <;> linarith

/-- The error of an interpolation whose position is exact. -/
theorem percentile_error (h : RoundsWithin round ε) {ordered : List ℚ} {proportion position : ℚ}
    (hvalues : ∀ k, |ordered.getD k 0| ≤ M)
    (hexact : (ordered.length - 1 : ℕ) * proportion = position) (hnonneg : 0 ≤ position)
    (hposition : round position = position)
    (hfraction : round (position - ⌊position⌋₊) = position - ⌊position⌋₊) :
    |percentileWith round ordered proportion - percentileWith id ordered proportion| ≤
      9 * (M * ε) ∧ |percentileWith round ordered proportion| ≤ 2 * M := by
  have hM : 0 ≤ M := (abs_nonneg _).trans (hvalues 0)
  have hδ : 0 ≤ M * ε := mul_nonneg hM h.nonneg
  have hεδ : M * ε ≤ M * (1 / 10) := mul_le_mul_of_nonneg_left h.small hM
  have hεεδ : ε * (M * ε) ≤ 1 / 10 * (M * ε) := mul_le_mul_of_nonneg_right h.small hδ
  simp only [percentileWith, percentileBounds, hexact, hposition, hfraction, id]
  have hf : 0 ≤ position - ⌊position⌋₊ := sub_nonneg.mpr (Nat.floor_le hnonneg)
  have hf' : position - ⌊position⌋₊ ≤ 1 := sub_le_iff_le_add'.mpr (Nat.lt_floor_add_one _).le
  generalize position - ⌊position⌋₊ = f at hf hf' ⊢
  have hlow := hvalues ⌊position⌋₊
  have hhigh := hvalues (min (⌊position⌋₊ + 1) (ordered.length - 1))
  generalize ordered.getD ⌊position⌋₊ 0 = low at hlow ⊢
  generalize ordered.getD (min (⌊position⌋₊ + 1) (ordered.length - 1)) 0 = high at hhigh ⊢
  have hdiff : |high - low| ≤ 2 * M := by
    rw [abs_le] at hlow hhigh ⊢
    constructor <;> linarith
  have hstep := h.error_le hdiff
  have hpart : ∀ {x B : ℚ}, |x| ≤ B → |x * f| ≤ B := fun {x B} hx => by
    rw [abs_mul, abs_of_nonneg hf]
    exact (mul_le_of_le_one_right (abs_nonneg x) hf').trans hx
  have herror := hpart hstep
  have hproduct : |round (high - low) * f| ≤ 2 * M + 2 * (M * ε) := by
    refine hpart ?_
    rw [abs_le] at hdiff hstep ⊢
    constructor <;> linarith
  have hround := h.error_le hproduct
  have hexact : |low + (high - low) * f| ≤ M := by
    calc |low + (high - low) * f| = |(1 - f) * low + f * high| := by ring_nf
      _ ≤ (1 - f) * |low| + f * |high| := by
          refine (abs_add_le _ _).trans_eq ?_
          rw [abs_mul, abs_mul, abs_of_nonneg hf, abs_of_nonneg (sub_nonneg.mpr hf')]
      _ ≤ (1 - f) * M + f * M := add_le_add
          (mul_le_mul_of_nonneg_left hlow (sub_nonneg.mpr hf')) (mul_le_mul_of_nonneg_left hhigh hf)
      _ = M := by ring
  rw [sub_mul] at herror
  have htotal : |low + round (round (high - low) * f)| ≤ 4 * M := by
    rw [abs_le] at hexact herror hround ⊢
    constructor <;> linarith
  have hlast := h.error_le htotal
  rw [abs_le] at hexact herror hround hlast
  refine ⟨abs_le.mpr ⟨?_, ?_⟩, abs_le.mpr ⟨?_, ?_⟩⟩ <;> linarith

/-- How far a rounded sum is from the sum. -/
theorem sum_error (h : RoundsWithin round ε) {values : List ℚ} (hvalues : ∀ v ∈ values, |v| ≤ c)
    (hc : 0 ≤ c) (hlength : values.length * ε ≤ 1 / 2) :
    |sumWith round values| ≤ 2 * values.length * c ∧
      |sumWith round values - values.sum| ≤ ε * c * values.length ^ 2 := by
  induction values using List.reverseRecOn with
  | nil => simp [sumWith]
  | append_singleton values v ih =>
    have hvalue := hvalues v (by simp)
    obtain ⟨hsum, herror⟩ := ih (fun v hv => hvalues v (by simp [hv])) (by
      refine le_trans (mul_le_mul_of_nonneg_right ?_ h.nonneg) hlength
      simp)
    have hfold : sumWith round (values ++ [v]) = round (sumWith round values + v) := by
      simp [sumWith]
    rw [List.length_append, List.length_singleton, Nat.cast_add_one] at hlength ⊢
    rw [hfold, List.sum_append, List.sum_singleton]
    have htotal : |sumWith round values + v| ≤ (2 * values.length + 1) * c :=
      (abs_add_le _ _).trans (by linarith)
    have hround := h.error_le htotal
    have hgrowth : ε * ((2 * values.length + 1) * c) ≤ c := by
      calc ε * ((2 * values.length + 1) * c) = (2 * ((values.length + 1) * ε) - ε) * c := by ring
        _ ≤ 1 * c := mul_le_mul_of_nonneg_right (by linarith [h.nonneg]) hc
        _ = c := one_mul c
    rw [abs_le] at htotal hround herror
    refine ⟨abs_le.mpr ⟨?_, ?_⟩, abs_le.mpr ⟨?_, ?_⟩⟩ <;> linarith

/-- How far the rounded mean of rounded values is from the mean. -/
theorem mean_error (h : RoundsWithin round ε) {values values' : List ℚ} {δ : ℚ}
    (hvalues : ∀ v ∈ values, |v| ≤ c) (hne : values ≠ []) (hlength : values.length * ε ≤ 1 / 2)
    (hclose : List.Forall₂ (fun v v' => |v - v'| ≤ δ) values values') :
    |round (sumWith round values / values.length) - mean values'| ≤
      (values.length + 2) * (c * ε) + δ := by
  obtain ⟨first, hfirst⟩ := List.exists_mem_of_ne_nil values hne
  have hc : 0 ≤ c := (abs_nonneg first).trans (hvalues first hfirst)
  have hn : (0 : ℚ) < values.length := Nat.cast_pos.mpr (List.length_pos_iff.mpr hne)
  obtain ⟨hsum, herror⟩ := h.sum_error hvalues hc hlength
  have hsums : |values.sum - values'.sum| ≤ values.length * δ := by
    clear hvalues hne hlength hfirst hn hsum herror
    induction hclose with
    | nil => simp
    | cons hvalue _ ih =>
      rw [List.sum_cons, List.sum_cons, List.length_cons, Nat.cast_add_one]
      rw [abs_le] at hvalue ih ⊢
      constructor <;> linarith
  have hquotient : |sumWith round values / values.length| ≤ 2 * c := by
    rw [abs_div, abs_of_pos hn, div_le_iff₀ hn]
    linarith
  have hround := h.error_le hquotient
  have hdistance : |(sumWith round values - values'.sum) / values.length| ≤
      ε * c * values.length + δ := by
    rw [abs_div, abs_of_pos hn, div_le_iff₀ hn]
    refine (abs_sub_le _ values.sum _).trans ((add_le_add herror hsums).trans_eq ?_)
    ring
  rw [sub_div] at hdistance
  rw [mean, ← hclose.length_eq]
  rw [abs_le] at hround hdistance ⊢
  constructor <;> linarith

/-- How far a rounded percentile is from the percentile. -/
theorem percentile_error_of_hundredths (h : RoundsWithin round ε) {ordered : List ℚ} {q : ℕ}
    (hvalues : ∀ k, |ordered.getD k 0| ≤ M) (hexact : ExactHundredths round (ordered.length * q)) :
    |percentileWith round ordered (q / 100) - percentileWith id ordered (q / 100)| ≤
      9 * (M * ε) ∧ |percentileWith round ordered (q / 100)| ≤ 2 * M := by
  have hbound : (ordered.length - 1) * q ≤ ordered.length * q :=
    Nat.mul_le_mul_right q (Nat.sub_le _ 1)
  have hposition : (ordered.length - 1 : ℕ) * (q / 100 : ℚ) =
      ((ordered.length - 1) * q : ℕ) / 100 := by
    rw [Nat.cast_mul, mul_div_assoc]
  generalize (ordered.length - 1) * q = k at hbound hposition
  refine h.percentile_error hvalues hposition (by positivity) (hexact k hbound) ?_
  have hfloor : ⌊(k : ℚ) / 100⌋₊ = k / 100 := by
    exact_mod_cast Nat.floor_div_eq_div (K := ℚ) k 100
  have hfraction : (k : ℚ) / 100 - (k / 100 : ℕ) = (k % 100 : ℕ) / 100 := by
    have := congrArg (Nat.cast (R := ℚ)) (Nat.div_add_mod k 100)
    push_cast at this
    linarith
  rw [hfloor, hfraction]
  exact hexact _ ((Nat.mod_le k 100).trans hbound)

/-- The robust return of an arithmetic is off by its rounding errors. -/
theorem robust_error (h : RoundsWithin round ε) {values : List ℚ} (hne : values ≠ [])
    (hvalues : ∀ v ∈ values, |v| ≤ M) (hlength : values.length * ε ≤ 1 / 2)
    (hexact : ExactHundredths round (values.length * 95)) :
    |robustReturnWith round values - exactReturn values| ≤
      (2 * values.length + 13) * (M * ε) := by
  obtain ⟨first, hfirst⟩ := List.exists_mem_of_ne_nil values hne
  have hM : 0 ≤ M := (abs_nonneg first).trans (hvalues first hfirst)
  have hδ : 0 ≤ M * ε := mul_nonneg hM h.nonneg
  have hordered : ∀ v ∈ sorted values, |v| ≤ M := fun v hv =>
    hvalues v ((sorted_perm values).mem_iff.mp hv)
  have hget : ∀ k, |(sorted values).getD k 0| ≤ M := fun k => by
    rw [List.getD_eq_getElem?_getD]
    cases hk : (sorted values)[k]? with
    | none => simpa using hM
    | some v => exact hordered v (List.mem_of_getElem? hk)
  rcases lt_or_ge values.length 20 with hshort | hlong
  · simp only [exactReturn, robustReturnWith, length_sorted, if_pos hshort]
    refine (h.median_error hget).trans (mul_le_mul_of_nonneg_right ?_ hδ)
    linarith [Nat.cast_nonneg (α := ℚ) values.length]
  · have hpercentile : ∀ q : ℕ, q ≤ 95 → _ := fun q hq =>
      h.percentile_error_of_hundredths hget (q := q) fun k hk => hexact k (hk.trans (by
        rw [length_sorted]
        exact Nat.mul_le_mul_left _ hq))
    obtain ⟨hlower, hlower'⟩ := hpercentile 5 (by decide)
    obtain ⟨hupper, hupper'⟩ := hpercentile 95 le_rfl
    rw [exactReturn_eq_mean hlong]
    simp only [robustReturnWith, length_sorted, if_neg hlong.not_gt]
    push_cast at hlower hlower' hupper hupper'
    generalize percentileWith round (sorted values) (5 / 100) = lower' at hlower hlower' ⊢
    generalize percentileWith round (sorted values) (95 / 100) = upper' at hupper hupper' ⊢
    generalize percentileWith id (sorted values) (5 / 100) = lower at hlower ⊢
    generalize percentileWith id (sorted values) (95 / 100) = upper at hupper ⊢
    have hclamp : ∀ v ∈ (sorted values).map (clamp lower' upper'), |v| ≤ 2 * M := by
      intro v hv
      obtain ⟨w, hw, rfl⟩ := List.mem_map.mp hv
      have hw := hordered w hw
      rw [abs_le] at hw hlower' hupper' ⊢
      exact ⟨le_min hupper'.1 (le_max_of_le_left hlower'.1), min_le_of_left_le hupper'.2⟩
    have hclose : List.Forall₂ (fun v v' => |v - v'| ≤ 9 * (M * ε))
        ((sorted values).map (clamp lower' upper')) ((sorted values).map (clamp lower upper)) := by
      refine List.forall₂_map_left_iff.mpr (List.forall₂_map_right_iff.mpr
        (List.forall₂_same.mpr fun v _ => ?_))
      refine (abs_min_sub_min_le_max _ _ _ _).trans (max_le hupper ?_)
      refine (abs_max_sub_max_le_max _ _ _ _).trans (max_le hlower ?_)
      rw [sub_self, abs_zero]
      linarith
    have hlength' : ((sorted values).map (clamp lower' upper')).length = values.length := by
      rw [List.length_map, length_sorted]
    have hmean := h.mean_error hclamp
      (List.ne_nil_of_length_pos (hlength' ▸ List.length_pos_iff.mpr hne))
      (by rwa [hlength']) hclose
    rw [hlength'] at hmean
    refine hmean.trans_eq ?_
    ring

end RoundsWithin

end Errors

/-! ## The laws -/

theorem rounded_within : RoundsWithin rounded (1 / (2 * 10 ^ 27)) where
  nonneg := by norm_num
  small := by norm_num
  error q := (abs_rounded_sub_le q).trans_eq (by ring)

theorem rounded_hundredths {bound : ℕ} (h : bound < 10 ^ 28) : ExactHundredths rounded bound := by
  intro k hk
  have hexact : rounded ((k : ℤ) * 10 ^ (-2 : ℤ)) = (k : ℤ) * 10 ^ (-2 : ℤ) := by
    refine rounded_eq_self ?_
    rw [Nat.abs_cast]
    exact_mod_cast hk.trans_lt h
  have hvalue : ((k : ℤ) * 10 ^ (-2 : ℤ) : ℚ) = k / 100 := by
    norm_num
    ring
  rwa [hvalue] at hexact

/-- The laws of a robust return at a list of values. -/
structure RobustLaws (robust : List ℚ → ℚ) (xs : List ℚ) : Prop where
  perm : ∀ ys, xs.Perm ys → robust ys = robust xs
  bounds : ∀ lo hi, (∀ x ∈ xs, lo ≤ x ∧ x ≤ hi) → lo ≤ robust xs ∧ robust xs ≤ hi
  mono : ∀ ys, List.Forall₂ (· ≤ ·) xs ys → robust xs ≤ robust ys
  affine : ∀ a b, 0 ≤ a → robust (xs.map fun x => a * x + b) = a * robust xs + b
  raised : 20 ≤ xs.length → ∀ u, (sorted xs)[upperIndex xs.length]? = some u →
    ∀ ys, List.Forall₂ (fun x y => y = x ∨ (u < x ∧ x ≤ y)) xs ys → robust ys = robust xs

theorem exactReturn_laws {xs : List ℚ} (hxs : xs ≠ []) : RobustLaws exactReturn xs := by
  have h := isLocation_exactReturn (List.length_pos_iff.mpr hxs).ne'
  refine ⟨fun ys hperm => (h.perm rfl hperm).symm, fun lo hi => h.bounds rfl,
    fun ys => h.mono rfl, fun a b => h.affine b rfl, fun hlong u hu ys hraised => ?_⟩
  refine exactReturn_of_raised hlong hu (hraised.imp fun x y hxy => ?_)
  exact hxy.imp id fun ⟨hux, hle⟩ => ⟨hux, hux.trans_le hle⟩

/-- A return of minus two thirds, rounded. -/
def minusTwoThirds : Decimal := ⟨-6666666666666666666666666667, -28⟩

end MarketMonitor
