import Mathlib.Algebra.BigOperators.Ring.List
import Mathlib.Algebra.Order.BigOperators.Group.List
import Mathlib.Algebra.Order.Field.Basic
import Mathlib.Algebra.Order.Floor.Semiring
import Mathlib.Data.List.GetD
import Mathlib.Data.List.Sort
import Mathlib.Tactic.FieldSimp
import Mathlib.Tactic.Linarith
import Mathlib.Tactic.Ring

/-!
# Statistics of location

A statistic of the lists of one length is one of location when it does not depend on their
order, is monotone in each value and follows changes of scale and origin (`IsLocation`); it
then lies between the least and the greatest value (`IsLocation.bounds`). The order
statistics are of location (`isLocation_orderStatistic`), and so are weighted means of two
statistics of location (`IsLocation.combine`) and the mean of the values clamped to two of
them (`IsLocation.clampedMean`) : medians, interpolated percentiles and winsorized means.
-/

namespace LocationStatistics

/-! ## Sorted lists -/

theorem map_eq_of_forall₂ {α β : Type*} {f : α → β} {xs ys : List α}
    (h : List.Forall₂ (fun x y => f y = f x) xs ys) : ys.map f = xs.map f := by
  induction h with
  | nil => rfl
  | cons hxy _ ih => rw [List.map_cons, List.map_cons, ih, hxy]

section Sorted

variable {α β : Type*} [LinearOrder α] [LinearOrder β] {xs ys : List α}

def sorted (xs : List α) : List α := xs.insertionSort (· ≤ ·)

@[simp]
theorem length_sorted (xs : List α) : (sorted xs).length = xs.length :=
  List.length_insertionSort _ _

theorem sorted_perm (xs : List α) : (sorted xs).Perm xs := List.perm_insertionSort _ xs

theorem pairwise_sorted (xs : List α) : (sorted xs).Pairwise (· ≤ ·) :=
  List.pairwise_insertionSort _ xs

theorem sorted_eq_of_perm (h : xs.Perm ys) : sorted xs = sorted ys :=
  ((sorted_perm xs).trans (h.trans (sorted_perm ys).symm)).eq_of_pairwise'
    (pairwise_sorted xs) (pairwise_sorted ys)

theorem sorted_map {f : α → β} (hf : Monotone f) (xs : List α) :
    sorted (xs.map f) = (sorted xs).map f :=
  ((sorted_perm _).trans ((sorted_perm xs).map f).symm).eq_of_pairwise'
    (pairwise_sorted _) ((pairwise_sorted xs).map f fun _ _ h => hf h)

/-- Insertion into sorted lists is monotone. -/
theorem forall₂_orderedInsert {a b : α} (hab : a ≤ b) (h : List.Forall₂ (· ≤ ·) xs ys)
    (hxs : xs.Pairwise (· ≤ ·)) (hys : ys.Pairwise (· ≤ ·)) :
    List.Forall₂ (· ≤ ·) (xs.orderedInsert (· ≤ ·) a) (ys.orderedInsert (· ≤ ·) b) := by
  induction h generalizing a b with
  | nil => exact .cons hab .nil
  | @cons x y xs ys hxy h ih =>
    have hx := List.Pairwise.of_cons hxs
    have hy := List.Pairwise.of_cons hys
    have hinsert : ∀ {z : α} {zs : List α}, (z :: zs).Pairwise (· ≤ ·) →
        zs.orderedInsert (· ≤ ·) z = z :: zs := by
      rintro z (- | ⟨w, ws⟩) hz
      · rfl
      · exact List.orderedInsert_cons_of_le _ _ ((List.pairwise_cons.mp hz).1 w List.mem_cons_self)
    rw [List.orderedInsert, List.orderedInsert]
    split <;> split
    case isTrue.isTrue => exact .cons hab (.cons hxy h)
    case isTrue.isFalse hax hby =>
      have := ih (hxy.trans (not_le.mp hby).le) hx hy
      rw [hinsert hxs] at this
      exact .cons (hax.trans hxy) this
    case isFalse.isTrue hax hby =>
      have := ih (hab.trans hby) hx hy
      rw [hinsert hys] at this
      exact .cons ((not_le.mp hax).le.trans hab) this
    case isFalse.isFalse => exact .cons hxy (ih hab hx hy)

/-- Raising values raises every order statistic. -/
theorem forall₂_sorted (h : List.Forall₂ (· ≤ ·) xs ys) :
    List.Forall₂ (· ≤ ·) (sorted xs) (sorted ys) := by
  induction h with
  | nil => exact .nil
  | cons hxy _ ih =>
    exact forall₂_orderedInsert hxy ih (pairwise_sorted _) (pairwise_sorted _)

theorem sorted_getElem_le {i j : ℕ} (hij : i ≤ j) (hj : j < (sorted xs).length) :
    (sorted xs)[i] ≤ (sorted xs)[j] := by
  rcases hij.eq_or_lt with rfl | hlt
  · exact le_rfl
  · exact List.pairwise_iff_getElem.mp (pairwise_sorted xs) i j (by omega) hj hlt

/-- The order statistics up to the `k`-th do not count the values above it. -/
theorem sorted_eq_of_raised {k : ℕ} {u : α} (hu : (sorted xs)[k]? = some u)
    (h : List.Forall₂ (fun x y => y = x ∨ (u < x ∧ u < y)) xs ys) {i : ℕ} (hi : i ≤ k) :
    (sorted ys)[i]? = (sorted xs)[i]? := by
  -- Everything above the `k`-th order statistic is sent to one value.
  let f : α → WithTop α := fun v => if v ≤ u then v else ⊤
  have hf : Monotone f := by
    intro v w hvw
    simp only [f]
    split <;> split
    case isTrue.isTrue => exact WithTop.coe_le_coe.mpr hvw
    case isTrue.isFalse => exact le_top
    case isFalse.isTrue hv hw => exact absurd (hvw.trans hw) hv
    case isFalse.isFalse => exact le_rfl
  have hmap : ys.map f = xs.map f := by
    refine map_eq_of_forall₂ (h.imp fun x y hxy => ?_)
    rcases hxy with rfl | ⟨hx, hy⟩
    · rfl
    · simp only [f, if_neg hx.not_ge, if_neg hy.not_ge]
  have hsorted : ((sorted ys)[i]?).map f = ((sorted xs)[i]?).map f := by
    rw [← List.getElem?_map, ← List.getElem?_map, ← sorted_map hf, ← sorted_map hf, hmap]
  obtain ⟨hk, rfl⟩ := List.getElem?_eq_some_iff.mp hu
  have hle : (sorted xs)[i] ≤ (sorted xs)[k] := sorted_getElem_le hi hk
  rw [List.getElem?_eq_getElem (show i < (sorted xs).length by omega), Option.map_some] at hsorted
  obtain ⟨w, hw, hvalue⟩ := Option.map_eq_some_iff.mp hsorted
  rw [List.getElem?_eq_getElem (show i < (sorted xs).length by omega), hw]
  simp only [f, if_pos hle] at hvalue
  split at hvalue
  · rw [WithTop.coe_injective hvalue]
  · exact absurd hvalue WithTop.top_ne_coe

end Sorted

/-! ## Location -/

variable {K : Type*} [Field K] [LinearOrder K] {n : ℕ} {r s : List K → K}

/-- A statistic of location of lists of `n` values. -/
structure IsLocation (n : ℕ) (r : List K → K) : Prop where
  perm : ∀ {xs ys : List K}, xs.length = n → xs.Perm ys → r xs = r ys
  mono : ∀ {xs ys : List K}, xs.length = n → List.Forall₂ (· ≤ ·) xs ys → r xs ≤ r ys
  affine : ∀ {xs : List K} {a : K} (b : K), xs.length = n → 0 ≤ a →
    r (xs.map fun x => a * x + b) = a * r xs + b

theorem IsLocation.congr (h : IsLocation n r) (heq : ∀ xs : List K, xs.length = n → s xs = r xs) :
    IsLocation n s where
  perm {xs ys} hlength hperm := by
    rw [heq xs hlength, heq ys (hperm.length_eq ▸ hlength), h.perm hlength hperm]
  mono {xs ys} hlength hle := by
    rw [heq xs hlength, heq ys (hle.length_eq ▸ hlength)]
    exact h.mono hlength hle
  affine {xs a} b hlength ha := by
    rw [heq xs hlength, heq _ (by rwa [List.length_map]), h.affine b hlength ha]

/-- A statistic of location lies between the least and the greatest value. -/
theorem IsLocation.bounds (h : IsLocation n r) {xs : List K} (hlength : xs.length = n) {lo hi : K}
    (hxs : ∀ x ∈ xs, lo ≤ x ∧ x ≤ hi) : lo ≤ r xs ∧ r xs ≤ hi := by
  -- A constant list is the image of any list under a change of scale to nothing.
  have hconstant : ∀ c : K, r (xs.map fun x => 0 * x + c) = c := fun c => by
    rw [h.affine c hlength le_rfl, zero_mul, zero_add]
  constructor
  · rw [← hconstant lo]
    refine h.mono (by rwa [List.length_map]) (List.forall₂_map_left_iff.mpr ?_)
    exact List.forall₂_same.mpr fun x hx => by rw [zero_mul, zero_add]; exact (hxs x hx).1
  · rw [← hconstant hi]
    refine h.mono hlength (List.forall₂_map_right_iff.mpr ?_)
    exact List.forall₂_same.mpr fun x hx => by rw [zero_mul, zero_add]; exact (hxs x hx).2

/-- The value at index `k` of the sorted list. -/
def orderStatistic (k : ℕ) (xs : List K) : K := (sorted xs).getD k 0

theorem orderStatistic_le {xs : List K} {i j : ℕ} (hij : i ≤ j) (hj : j < xs.length) :
    orderStatistic i xs ≤ orderStatistic j xs := by
  have hj : j < (sorted xs).length := by rwa [length_sorted]
  rw [orderStatistic, orderStatistic, List.getD_eq_getElem _ _ (hij.trans_lt hj),
    List.getD_eq_getElem _ _ hj]
  exact sorted_getElem_le hij hj

/-- `v` moved between the bounds. -/
def clamp (lower upper v : K) : K := min upper (max lower v)

def mean (xs : List K) : K := xs.sum / xs.length

/-- The mean of the values clamped to two statistics. -/
def clampedMean (r s : List K → K) (xs : List K) : K := mean (xs.map (clamp (r xs) (s xs)))

/-- Values above the upper bound can be raised. -/
theorem clampedMean_eq_of_raised {xs ys : List K} {u : K} (hr : r ys = r xs) (hs : s ys = s xs)
    (hu : s xs ≤ u) (h : List.Forall₂ (fun x y => y = x ∨ (u < x ∧ u < y)) xs ys) :
    clampedMean r s ys = clampedMean r s xs := by
  have hclamp : ∀ v, u < v → clamp (r xs) (s xs) v = s xs := fun v hv =>
    min_eq_left (hu.trans (hv.le.trans (le_max_right _ _)))
  have hmap : ys.map (clamp (r xs) (s xs)) = xs.map (clamp (r xs) (s xs)) := by
    refine map_eq_of_forall₂ (h.imp fun x y hxy => ?_)
    rcases hxy with rfl | ⟨hx, hy⟩
    · rfl
    · rw [hclamp x hx, hclamp y hy]
  rw [clampedMean, clampedMean, hr, hs, hmap]

variable [IsStrictOrderedRing K]

theorem monotone_affine {a : K} (ha : 0 ≤ a) (b : K) : Monotone fun x => a * x + b :=
  fun _ _ h => add_le_add_left (mul_le_mul_of_nonneg_left h ha) b

/-- Order statistics are statistics of location. -/
theorem isLocation_orderStatistic {k : ℕ} (hk : k < n) :
    IsLocation n (orderStatistic k : List K → K) where
  perm _ h := by rw [orderStatistic, orderStatistic, sorted_eq_of_perm h]
  mono {xs ys} hlength h := by
    have hsorted := forall₂_sorted h
    have hys : k < (sorted ys).length := by rwa [← hsorted.length_eq, length_sorted, hlength]
    have hxs : k < (sorted xs).length := by rwa [hsorted.length_eq]
    rw [orderStatistic, orderStatistic, List.getD_eq_getElem _ _ hxs,
      List.getD_eq_getElem _ _ hys]
    exact hsorted.get hxs hys
  affine {xs a} b hlength ha := by
    have hxs : k < (sorted xs).length := by rwa [length_sorted, hlength]
    rw [orderStatistic, orderStatistic, sorted_map (monotone_affine ha b),
      List.getD_eq_getElem _ _ hxs, List.getD_eq_getElem _ _ (by rwa [List.length_map]),
      List.getElem_map]

/-- A point between two statistics of location. -/
theorem IsLocation.combine (hr : IsLocation n r) (hs : IsLocation n s) {f : K} (hf : 0 ≤ f)
    (hf' : f ≤ 1) : IsLocation n fun xs => r xs + (s xs - r xs) * f where
  perm hlength h := by simp only [hr.perm hlength h, hs.perm hlength h]
  mono hlength h := by
    have := mul_le_mul_of_nonneg_left (hr.mono hlength h) (sub_nonneg.mpr hf')
    have := mul_le_mul_of_nonneg_left (hs.mono hlength h) hf
    linarith
  affine b hlength ha := by
    simp only [hr.affine b hlength ha, hs.affine b hlength ha]
    ring

theorem clamp_affine {a : K} (ha : 0 ≤ a) (b lower upper v : K) :
    clamp (a * lower + b) (a * upper + b) (a * v + b) = a * clamp lower upper v + b := by
  have hmono := monotone_affine ha b
  rw [clamp, clamp, ← hmono.map_max, ← hmono.map_min]

theorem mean_affine {xs : List K} (hxs : xs ≠ []) (a b : K) :
    mean (xs.map fun x => a * x + b) = a * mean xs + b := by
  have hlength : (xs.length : K) ≠ 0 := Nat.cast_ne_zero.mpr (List.length_pos_iff.mpr hxs).ne'
  have hsum : (xs.map fun x => a * x + b).sum = a * xs.sum + xs.length * b := by
    rw [List.sum_map_add, List.sum_map_mul_left, List.map_id', List.map_const', List.sum_replicate,
      nsmul_eq_mul]
  rw [mean, mean, hsum, List.length_map]
  field_simp

/-- So is the mean of what lies between two of them. -/
theorem IsLocation.clampedMean (hr : IsLocation n r) (hs : IsLocation n s) (hn : n ≠ 0) :
    IsLocation n (clampedMean r s) where
  perm hlength h := by
    rw [LocationStatistics.clampedMean, LocationStatistics.clampedMean, hr.perm hlength h,
      hs.perm hlength h, mean, mean, (h.map _).sum_eq, (h.map _).length_eq]
  mono {xs ys} hlength h := by
    have hclamp : List.Forall₂ (· ≤ ·) (xs.map (clamp (r xs) (s xs)))
        (ys.map (clamp (r ys) (s ys))) := by
      refine List.forall₂_map_left_iff.mpr (List.forall₂_map_right_iff.mpr ?_)
      exact h.imp fun x y hxy => min_le_min (hs.mono hlength h) (max_le_max (hr.mono hlength h) hxy)
    rw [LocationStatistics.clampedMean, LocationStatistics.clampedMean, mean, mean,
      hclamp.length_eq]
    exact div_le_div_of_nonneg_right hclamp.sum_le_sum (Nat.cast_nonneg _)
  affine {xs a} b hlength ha := by
    have hxs : xs ≠ [] := by
      rintro rfl
      exact hn hlength.symm
    rw [LocationStatistics.clampedMean, LocationStatistics.clampedMean,
      hr.affine b hlength ha, hs.affine b hlength ha, ← mean_affine (by simpa using hxs),
      List.map_map, List.map_map]
    congr 2
    funext x
    exact clamp_affine ha b _ _ x

end LocationStatistics
