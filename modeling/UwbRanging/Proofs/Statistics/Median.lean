import Mathlib.Algebra.Order.Floor.Defs
import Mathlib.Algebra.Order.Group.Abs
import Mathlib.Algebra.Ring.CharZero
import Mathlib.Data.List.Sort
import Mathlib.Tactic.Linarith
import UwbRanging.Proofs.Statistics.Exact
import UwbRanging.Proofs.Statistics.Order

/-!
The median of numbers is that of their order statistics. The series is sorted by insertion into a descending list; what
comes out is the one ascending list of the same numbers. Half of the series lies on either side of its two middle
values, which are one if the length is odd.
-/

namespace UwbRanging.Statistics

open Extended

section OrderStatistics

variable {K : Type} [LinearOrder K]

/-- The values in ascending order. -/
def sorted (xs : List K) : List K :=
  xs.insertionSort (· ≤ ·)

@[simp] theorem length_sorted (xs : List K) : (sorted xs).length = xs.length :=
  List.length_insertionSort _ xs

variable [Zero K]

/-- The `k`-th value of the series, from the least one on. -/
def orderStatistic (xs : List K) (k : Nat) : K :=
  (sorted xs).getD k 0

/-- The greatest value of the lower half, to which the middle one counts. -/
def lowerMiddle (xs : List K) : K :=
  orderStatistic xs ((xs.length - 1) / 2)

/-- The least value of the upper half, to which the middle one counts as well. -/
def upperMiddle (xs : List K) : K :=
  orderStatistic xs (xs.length / 2)

variable {xs : List K}

theorem orderStatistic_eq_getElem {k : Nat} (hk : k < (sorted xs).length) : orderStatistic xs k = (sorted xs)[k] :=
  (List.getElem_eq_getD 0).symm

theorem orderStatistic_mem {k : Nat} (hk : k < xs.length) : orderStatistic xs k ∈ xs := by
  rw [← length_sorted xs] at hk
  rw [orderStatistic_eq_getElem hk]
  exact (List.mem_insertionSort _).1 (List.getElem_mem _)

theorem exists_orderStatistic {x : K} (hx : x ∈ xs) : ∃ k < xs.length, orderStatistic xs k = x := by
  obtain ⟨k, hk, rfl⟩ := List.getElem_of_mem ((List.mem_insertionSort (· ≤ ·)).2 hx)
  exact ⟨k, (length_sorted xs).subst hk, orderStatistic_eq_getElem hk⟩

theorem orderStatistic_le {i j : Nat} (hij : i ≤ j) (hj : j < xs.length) :
    orderStatistic xs i ≤ orderStatistic xs j := by
  rw [← length_sorted xs] at hj
  rw [orderStatistic_eq_getElem (hij.trans_lt hj), orderStatistic_eq_getElem hj]
  exact List.sortedLE_iff_getElem_le_getElem_of_le.1 List.sortedLE_insertionSort hij

theorem lowerMiddle_mem (h : xs ≠ []) : lowerMiddle xs ∈ xs :=
  orderStatistic_mem (by have := List.length_pos_iff.2 h; omega)

theorem upperMiddle_mem (h : xs ≠ []) : upperMiddle xs ∈ xs :=
  orderStatistic_mem (by have := List.length_pos_iff.2 h; omega)

theorem lowerMiddle_le_upperMiddle (h : xs ≠ []) : lowerMiddle xs ≤ upperMiddle xs :=
  orderStatistic_le (by omega) (by have := List.length_pos_iff.2 h; omega)

/-- The two halves of an odd number of values share the middle one. -/
theorem lowerMiddle_eq_upperMiddle (hodd : xs.length % 2 = 1) : lowerMiddle xs = upperMiddle xs :=
  congrArg (orderStatistic xs) (by omega)

/-- No value stands between the two in the middle. -/
theorem le_lowerMiddle_or_upperMiddle_le {x : K} (hx : x ∈ xs) : x ≤ lowerMiddle xs ∨ upperMiddle xs ≤ x := by
  obtain ⟨k, hk, rfl⟩ := exists_orderStatistic hx
  rcases Nat.lt_or_ge k (xs.length / 2) with hlower | hupper
  · exact .inl (orderStatistic_le (by omega) (by omega))
  · exact .inr (orderStatistic_le hupper hk)

end OrderStatistics

section Median

variable {K : Type} [Field K] [LinearOrder K]

/-- The point halfway between the two middle values. -/
def middle (xs : List K) : K :=
  (lowerMiddle xs + upperMiddle xs) / (2 : ℕ)

theorem middle_eq (xs : List K) : middle xs = (lowerMiddle xs + upperMiddle xs) / 2 := by
  rw [middle, Nat.cast_ofNat]

variable [FloorSemiring K] [SquareRoot K]

theorem insertDescending_finite (v : K) (ws : List K) :
    insertDescending (finite v) (ws.map finite) = (ws.orderedInsert (· ≥ ·) v).map finite := by
  induction ws with
  | nil => rfl
  | cons w ws ih =>
      rw [List.map_cons, insertDescending, ih, lt_finite, List.orderedInsert_cons]
      rcases lt_or_ge v w with h | h
      · rw [if_pos (decide_eq_true h), if_neg h.not_ge, List.map_cons]
      · rw [if_neg (by simpa using h), if_pos h, List.map_cons, List.map_cons]

theorem ascending_finite (xs : List K) : ascending (xs.map finite) = (sorted xs).map finite := by
  have hfrom (ws : List K) : (xs.map finite).foldl (fun ws v => insertDescending v ws) (ws.map finite) =
      (xs.foldl (fun ws v => ws.orderedInsert (· ≥ ·) v) ws).map finite := by
    induction xs generalizing ws with
    | nil => rfl
    | cons x xs ih => rw [List.map_cons, List.foldl_cons, List.foldl_cons, insertDescending_finite, ih]
  -- the last value is inserted first, where the series is sorted from its end
  have hsorted : (xs.reverse.insertionSort (· ≥ ·)).reverse = sorted xs := by
    refine List.Perm.eq_of_sortedLE (List.sortedLE_reverse.2 List.sortedGE_insertionSort)
      List.sortedLE_insertionSort ?_
    exact (List.reverse_perm _).trans ((List.perm_insertionSort _ _).trans
      ((List.reverse_perm xs).trans (List.perm_insertionSort _ xs).symm))
  have hfold : xs.foldl (fun ws v => ws.orderedInsert (· ≥ ·) v) [] = xs.reverse.insertionSort (· ≥ ·) :=
    List.foldl_eq_foldr_reverse ..
  rw [ascending, ← List.map_nil, hfrom, hfold, ← List.map_reverse, hsorted]

variable {xs : List K}

theorem middleOf_sorted (h : xs ≠ []) : middleOf ((sorted xs).map finite) = .ok (finite (middle xs)) := by
  have hpos : 0 < xs.length := List.length_pos_iff.2 h
  have hlower : (xs.length - 1) / 2 < (sorted xs).length := by rw [length_sorted]; omega
  have hfirst : (sorted xs)[(xs.length - 1) / 2] = lowerMiddle xs := (orderStatistic_eq_getElem hlower).symm
  have htwo : (2 : K) ≠ 0 := two_ne_zero
  have hmean (a b : K) : (finite a + finite b) / Arith.ofNat 2 = finite ((a + b) / 2) := by
    rw [finite_add_finite, ofNat_eq, Nat.cast_ofNat, finite_div_finite _ htwo]
  rw [middleOf, List.length_map, length_sorted, ← List.map_drop, List.drop_eq_getElem_cons hlower, hfirst]
  rcases Nat.mod_two_eq_zero_or_one xs.length with heven | hodd
  · have hupper : (xs.length - 1) / 2 + 1 < (sorted xs).length := by rw [length_sorted]; omega
    have hsecond : (sorted xs)[(xs.length - 1) / 2 + 1] = upperMiddle xs := by
      rw [upperMiddle, orderStatistic_eq_getElem (by rw [length_sorted]; omega)]
      congr 1
      omega
    rw [List.drop_eq_getElem_cons hupper, hsecond]
    simp only [List.map_cons, heven, if_true, hmean]
    rfl
  · have hself : middle xs = lowerMiddle xs := by
      rw [middle_eq, ← lowerMiddle_eq_upperMiddle hodd, add_self_div_two]
    rw [hself]
    cases (sorted xs).drop ((xs.length - 1) / 2 + 1) with
    | nil => rfl
    | cons b rest => simp [hodd]

theorem median_finite [UnorderedSort] (h : xs ≠ []) : median (xs.map finite) = .ok (finite (middle xs)) := by
  have hsortable : isSortable (xs.map finite) = true := by
    refine isSortable_of_finite fun x hx => ?_
    obtain ⟨a, -, rfl⟩ := List.mem_map.1 hx
    exact isFinite_iff.2 ⟨a, rfl⟩
  rw [median_of_isSortable hsortable, ascending_finite, middleOf_sorted h]

end Median

section Closeness

variable {K : Type} [Field K] [LinearOrder K] [IsStrictOrderedRing K] {xs : List K}

/-- The two middle values are the nearest ones to the point between them. -/
theorem half_gap_le {x : K} (h : xs ≠ []) (hx : x ∈ xs) :
    (upperMiddle xs - lowerMiddle xs) / 2 ≤ |x - middle xs| := by
  have hmiddles := lowerMiddle_le_upperMiddle h
  rw [le_abs', middle_eq]
  rcases le_lowerMiddle_or_upperMiddle_le hx with hlower | hupper
  · left
    linarith
  · right
    linarith

theorem abs_lowerMiddle_sub (h : xs ≠ []) :
    |lowerMiddle xs - middle xs| = (upperMiddle xs - lowerMiddle xs) / 2 := by
  have hmiddles := lowerMiddle_le_upperMiddle h
  rw [middle_eq, abs_of_nonpos (by linarith)]
  ring

/-- Nothing is close to the median only if the two middle values are too far from each other. -/
theorem exists_close_iff {threshold : K} (h : xs ≠ []) :
    (∃ x ∈ xs, |x - middle xs| < threshold) ↔ upperMiddle xs - lowerMiddle xs < 2 * threshold := by
  rw [← div_lt_iff₀' two_pos]
  constructor
  · rintro ⟨x, hx, hclose⟩
    exact (half_gap_le h hx).trans_lt hclose
  · intro hgap
    exact ⟨_, lowerMiddle_mem h, (abs_lowerMiddle_sub h).trans_lt hgap⟩

end Closeness

end UwbRanging.Statistics
