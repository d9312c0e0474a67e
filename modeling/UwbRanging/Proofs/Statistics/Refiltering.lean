import Mathlib.Data.List.GetD
import UwbRanging.Proofs.Statistics.Outlier

/-!
When to filter again changes nothing. What is removed moves the median, so the second filter may remove values that the
first one kept. It does not if equally many values were removed below and above the median, which then stays where it
is, nor if the values that stayed are so close to each other that it does not matter where between them it lies.
-/

namespace UwbRanging.Statistics

open Extended
open scoped List

section OrderStatistics

variable {K : Type} [LinearOrder K] {xs ys : List K}

theorem sorted_perm (h : xs.Perm ys) : sorted xs = sorted ys := by
  have hsorted : (sorted xs).Perm (sorted ys) :=
    (List.perm_insertionSort _ xs).trans (h.trans (List.perm_insertionSort _ ys).symm)
  exact hsorted.eq_of_sortedLE List.sortedLE_insertionSort List.sortedLE_insertionSort

/-- Where no value of the first part is above one of the second, each part is sorted on its own. -/
theorem sorted_append (h : ∀ x ∈ xs, ∀ y ∈ ys, x ≤ y) : sorted (xs ++ ys) = sorted xs ++ sorted ys := by
  have happend : (sorted xs ++ sorted ys).SortedLE := by
    refine (List.pairwise_append.2 ⟨List.sortedLE_insertionSort.pairwise, List.sortedLE_insertionSort.pairwise,
      fun x hx y hy => ?_⟩).sortedLE
    exact h x ((List.mem_insertionSort _).1 hx) y ((List.mem_insertionSort _).1 hy)
  have hperm : (sorted (xs ++ ys)).Perm (sorted xs ++ sorted ys) :=
    (List.perm_insertionSort _ _).trans
      ((List.perm_insertionSort _ xs).symm.append (List.perm_insertionSort _ ys).symm)
  exact hperm.eq_of_sortedLE List.sortedLE_insertionSort happend

variable [Zero K]

theorem orderStatistic_append {k : Nat} (h : ∀ x ∈ xs, ∀ y ∈ ys, x ≤ y) (hk : k < xs.length) :
    orderStatistic (xs ++ ys) k = orderStatistic xs k := by
  rw [orderStatistic, sorted_append h, List.getD_append _ _ _ _ (by rwa [length_sorted]), orderStatistic]

theorem orderStatistic_append_add (h : ∀ x ∈ xs, ∀ y ∈ ys, x ≤ y) (k : Nat) :
    orderStatistic (xs ++ ys) (xs.length + k) = orderStatistic ys k := by
  rw [orderStatistic, sorted_append h, List.getD_append_right _ _ _ _ (by rw [length_sorted]; omega), length_sorted,
    Nat.add_sub_cancel_left, orderStatistic]

end OrderStatistics

section Middle

variable {K : Type} [Field K] [LinearOrder K] {xs ys lower upper : List K}

theorem middle_perm (h : xs.Perm ys) : middle xs = middle ys := by
  simp only [middle, lowerMiddle, upperMiddle, orderStatistic, sorted_perm h, h.length_eq]

/-- Equally many values below and above a series do not move its middle. -/
theorem middle_between (h : xs ≠ []) (hlower : ∀ x ∈ lower, ∀ y ∈ xs, x ≤ y) (hupper : ∀ x ∈ xs, ∀ y ∈ upper, x ≤ y)
    (hlength : lower.length = upper.length) : middle (lower ++ (xs ++ upper)) = middle xs := by
  have hpos : 0 < xs.length := List.length_pos_iff.2 h
  obtain ⟨z, hz⟩ := List.exists_mem_of_ne_nil xs h
  have hrest : ∀ x ∈ lower, ∀ y ∈ xs ++ upper, x ≤ y := by
    intro x hx y hy
    rcases List.mem_append.1 hy with hy | hy
    · exact hlower x hx y hy
    · exact (hlower x hx z hz).trans (hupper z hz y hy)
  have hstatistic {k : Nat} (hk : k < xs.length) :
      orderStatistic (lower ++ (xs ++ upper)) (lower.length + k) = orderStatistic xs k := by
    rw [orderStatistic_append_add hrest, orderStatistic_append hupper hk]
  have htotal : (lower ++ (xs ++ upper)).length = lower.length + (xs.length + lower.length) := by
    rw [List.length_append, List.length_append, ← hlength]
  have hfirst : ((lower ++ (xs ++ upper)).length - 1) / 2 = lower.length + (xs.length - 1) / 2 := by omega
  have hsecond : (lower ++ (xs ++ upper)).length / 2 = lower.length + xs.length / 2 := by omega
  rw [middle, middle, lowerMiddle, upperMiddle, hfirst, hsecond, hstatistic (by omega), hstatistic (by omega),
    lowerMiddle, upperMiddle]

variable [IsStrictOrderedRing K] {threshold : K}

/-- The median of values that are close to each other is close to all of them. -/
theorem abs_sub_middle_lt (h : ∀ x ∈ xs, ∀ y ∈ xs, x - y < threshold) {x : K} (hx : x ∈ xs) :
    |x - middle xs| < threshold := by
  have hne : xs ≠ [] := List.ne_nil_of_mem hx
  have hlower : lowerMiddle xs ∈ xs := lowerMiddle_mem hne
  have hupper : upperMiddle xs ∈ xs := upperMiddle_mem hne
  have := h x hx _ hlower
  have := h x hx _ hupper
  have := h _ hlower x hx
  have := h _ hupper x hx
  rw [middle_eq, abs_lt]
  constructor <;> linarith

end Middle

section Filtered

variable {K : Type} [Field K] [LinearOrder K] {xs : List K} {threshold : K}

/-- The values that the filter removes from below the median. -/
def farBelow (threshold : K) (xs : List K) : List K :=
  xs.filter fun x => x < middle xs ∧ threshold ≤ |x - middle xs|

/-- The values that the filter removes from above the median. -/
def farAbove (threshold : K) (xs : List K) : List K :=
  xs.filter fun x => middle xs < x ∧ threshold ≤ |x - middle xs|

theorem closeToMiddle_of_middle_eq (h : middle (closeToMiddle threshold xs) = middle xs) :
    closeToMiddle threshold (closeToMiddle threshold xs) = closeToMiddle threshold xs := by
  rw [closeToMiddle, h, List.filter_eq_self]
  exact fun x hx => (List.mem_filter.1 hx).2

variable [IsStrictOrderedRing K]

/-- With a positive threshold the median itself is close, so every value that is not stands below or above it. -/
theorem perm_farBelow_farAbove (hpos : 0 < threshold) (xs : List K) :
    farBelow threshold xs ++ (closeToMiddle threshold xs ++ farAbove threshold xs) ~ xs := by
  have hfar : xs.filter (fun x => !decide (|x - middle xs| < threshold)) ~
      farBelow threshold xs ++ farAbove threshold xs := by
    refine (List.filter_append_perm (fun x => decide (x < middle xs)) _).symm.trans (.of_eq ?_)
    rw [List.filter_filter, List.filter_filter, farBelow, farAbove]
    congr 1
    · refine List.filter_congr fun x _ => ?_
      rw [Bool.decide_and, ← decide_not, decide_eq_decide.2 not_lt]
    · refine List.filter_congr fun x _ => ?_
      have hne : threshold ≤ |x - middle xs| → x ≠ middle xs := by
        rintro hfar rfl
        rw [sub_self, abs_zero] at hfar
        exact hpos.not_ge hfar
      grind
  calc farBelow threshold xs ++ (closeToMiddle threshold xs ++ farAbove threshold xs)
      ~ closeToMiddle threshold xs ++ (farBelow threshold xs ++ farAbove threshold xs) := by
        rw [← List.append_assoc, ← List.append_assoc]
        exact List.perm_append_comm.append_right _
    _ ~ closeToMiddle threshold xs ++ xs.filter (fun x => !decide (|x - middle xs| < threshold)) :=
        hfar.symm.append_left _
    _ ~ xs := List.filter_append_perm _ xs

/-- Equally many values removed on both sides of the median leave it where it is. -/
theorem middle_closeToMiddle (hpos : 0 < threshold) (hclose : closeToMiddle threshold xs ≠ [])
    (hlength : (farBelow threshold xs).length = (farAbove threshold xs).length) :
    middle (closeToMiddle threshold xs) = middle xs := by
  have hbelow {x y : K} (hx : x ∈ farBelow threshold xs) (hy : |y - middle xs| < threshold) : x ≤ y := by
    obtain ⟨hless, hfar⟩ := of_decide_eq_true (List.mem_filter.1 hx).2
    rw [abs_of_neg (sub_neg.2 hless)] at hfar
    have := (abs_lt.1 hy).1
    linarith
  have habove {x y : K} (hx : |x - middle xs| < threshold) (hy : y ∈ farAbove threshold xs) : x ≤ y := by
    obtain ⟨hless, hfar⟩ := of_decide_eq_true (List.mem_filter.1 hy).2
    rw [abs_of_pos (sub_pos.2 hless)] at hfar
    have := (abs_lt.1 hx).2
    linarith
  have hmem {x : K} (hx : x ∈ closeToMiddle threshold xs) : |x - middle xs| < threshold :=
    of_decide_eq_true (List.mem_filter.1 hx).2
  rw [← middle_perm (perm_farBelow_farAbove hpos xs)]
  exact (middle_between hclose (fun _ hx _ hy => hbelow hx (hmem hy)) (fun _ hx _ hy => habove (hmem hx) hy)
    hlength).symm

theorem closeToMiddle_closeToMiddle (hpos : 0 < threshold)
    (h : (farBelow threshold xs).length = (farAbove threshold xs).length ∨
      ∀ x ∈ closeToMiddle threshold xs, ∀ y ∈ closeToMiddle threshold xs, x - y < threshold) :
    closeToMiddle threshold (closeToMiddle threshold xs) = closeToMiddle threshold xs := by
  by_cases hclose : closeToMiddle threshold xs = []
  · rw [hclose]
    rfl
  rcases h with hlength | hspan
  · exact closeToMiddle_of_middle_eq (middle_closeToMiddle hpos hclose hlength)
  · refine List.filter_eq_self.2 fun x hx => decide_eq_true (abs_sub_middle_lt hspan hx)

end Filtered

section Sides

variable {α : Type} [Arith α] [UnorderedSort]

/-- How many values the filter removes from one side of the median. -/
def removedFrom (side : α → α → Bool) (values : List α) (threshold : α) : Nat :=
  match median values with
  | .error _ => 0
  | .ok middle => values.countP fun v => side v middle && !isClose threshold middle v

def removedBelow (values : List α) (threshold : α) : Nat :=
  removedFrom (fun v middle => Arith.lt v middle) values threshold

def removedAbove (values : List α) (threshold : α) : Nat :=
  removedFrom (fun v middle => Arith.lt middle v) values threshold

end Sides

section Refiltering

variable {K : Type} [Field K] [LinearOrder K] [FloorSemiring K] [SquareRoot K]

theorem removedFrom_finite [UnorderedSort] {side : Extended K → Extended K → Bool} {p : K → K → Prop} [DecidableRel p]
    (hside : ∀ x m, side (finite x) (finite m) = decide (p x m)) (xs : List K) (threshold : K) :
    removedFrom side (xs.map finite) (finite threshold) =
      (xs.filter fun x => p x (middle xs) ∧ threshold ≤ |x - middle xs|).length := by
  cases xs with
  | nil => simp [removedFrom]
  | cons x xs =>
      rw [removedFrom, median_finite (List.cons_ne_nil x xs), ← List.countP_eq_length_filter]
      simp only [List.countP_map]
      refine List.countP_congr fun y _ => ?_
      simp [hside]

/-- To filter a filtered series again with the same threshold removes nothing if equally many values were removed below
and above the median, or if any two of the values that stayed are closer than the threshold. -/
theorem filterOutliers_filterOutliers [IsStrictOrderedRing K] [UnorderedSort] {values : List (Extended K)}
    {threshold : Extended K} (hfinite : ∀ v ∈ values, Arith.isFinite v = true)
    (hpos : Arith.lt Arith.zero threshold = true) :
    ∃ outcome, filterOutliers values threshold = some outcome ∧
      (removedBelow values threshold = removedAbove values threshold ∨
        (∀ v ∈ outcome.retained, ∀ w ∈ outcome.retained, Arith.lt (v - w) threshold = true) →
          filterOutliers outcome.retained threshold = some ⟨outcome.retained, 0⟩) := by
  obtain ⟨xs, rfl⟩ := exists_map_finite hfinite
  cases threshold with
  | nan => cases hpos
  | infinite negative =>
      cases negative with
      | true => cases hpos
      | false => exact ⟨_, filterOutliers_infinite xs, fun _ => filterOutliers_infinite xs⟩
  | finite threshold =>
      rw [zero_eq, lt_finite, decide_eq_true_eq] at hpos
      refine ⟨_, filterOutliers_finite threshold xs, fun h => ?_⟩
      rw [removedBelow, removedAbove, removedFrom_finite (p := (· < ·)) fun _ _ => rfl,
        removedFrom_finite (p := (· > ·)) fun _ _ => rfl] at h
      have hagain : closeToMiddle threshold (closeToMiddle threshold xs) = closeToMiddle threshold xs := by
        refine closeToMiddle_closeToMiddle hpos (h.imp_right fun hspan x hx y hy => ?_)
        simpa using hspan _ (List.mem_map_of_mem hx) _ (List.mem_map_of_mem hy)
      have hnone : ((closeToMiddle threshold xs).countP fun x =>
          threshold ≤ |x - middle (closeToMiddle threshold xs)|) = 0 := by
        rw [← length_sub_length_closeToMiddle, hagain, Nat.sub_self]
      rw [filterOutliers_finite, hagain, hnone]

/-- One value removed on each side, and what stayed reaches further than the threshold; two values removed on one side,
and what stayed does not. -/
theorem filterOutliers_filterOutliers_balanced_narrow :
    ((filterOutliers ([-100, 30, 10, 20, 200].map (finite : ℚ → Extended ℚ)) (finite 11)).bind
        fun outcome => filterOutliers outcome.retained (finite 11)) = some ⟨[finite 30, finite 10, finite 20], 0⟩ ∧
      ((filterOutliers ([3, 100, 1, 200, 2].map (finite : ℚ → Extended ℚ)) (finite 5)).bind
        fun outcome => filterOutliers outcome.retained (finite 5)) = some ⟨[finite 3, finite 1, finite 2], 0⟩ := by
  have hfirst : ∀ v ∈ [-100, 30, 10, 20, 200].map (finite : ℚ → Extended ℚ), Arith.isFinite v = true := by
    decide +kernel
  have hsecond : ∀ v ∈ [3, 100, 1, 200, 2].map (finite : ℚ → Extended ℚ), Arith.isFinite v = true := by
    decide +kernel
  obtain ⟨balanced, hbalanced, hagain⟩ :=
    filterOutliers_filterOutliers hfirst (by decide +kernel : Arith.lt Arith.zero (finite (11 : ℚ)) = true)
  obtain ⟨narrow, hnarrow, hagain'⟩ :=
    filterOutliers_filterOutliers hsecond (by decide +kernel : Arith.lt Arith.zero (finite (5 : ℚ)) = true)
  have hretained : balanced.retained = [finite 30, finite 10, finite 20] := by
    have hmap := congrArg (Option.map FilterOutcome.retained) hbalanced
    refine Option.some.inj (hmap.symm.trans ?_)
    decide +kernel
  have hretained' : narrow.retained = [finite 3, finite 1, finite 2] := by
    have hmap := congrArg (Option.map FilterOutcome.retained) hnarrow
    refine Option.some.inj (hmap.symm.trans ?_)
    decide +kernel
  constructor
  · rw [hbalanced, Option.bind_some, hagain (.inl (by decide +kernel)), hretained]
  · have hspan : ∀ v ∈ narrow.retained, ∀ w ∈ narrow.retained, Arith.lt (v - w) (finite 5) = true := by
      rw [hretained']
      decide +kernel
    rw [hnarrow, Option.bind_some, hagain' (.inr hspan), hretained']

/-- Two values removed above the median let it fall to the least values, and then the greatest one is too far away. -/
example :
    (filterOutliers ([1, 1, 1, 5, 9, 20, 20].map (finite : ℚ → Extended ℚ)) (finite 5)).map FilterOutcome.retained =
      some ([1, 1, 1, 5, 9].map finite) ∧
    (filterOutliers ([1, 1, 1, 5, 9].map (finite : ℚ → Extended ℚ)) (finite 5)).map FilterOutcome.retained =
      some ([1, 1, 1, 5].map finite) := by
  decide +kernel

end Refiltering

end UwbRanging.Statistics
