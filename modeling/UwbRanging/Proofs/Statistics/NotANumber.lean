import UwbRanging.Proofs.Float.NotANumber
import UwbRanging.Proofs.Statistics.Sort

/-!
Values that are no numbers in a series that is filtered. None of them stays. But they are not left out of the sort
that the median is taken from. In a short series each one is a wall there: what comes before it and what comes after
it is sorted apart, and what then stands in the middle need not be the median of the numbers. In a long one nothing is
known of the middle, and the filter may break off.
-/

namespace UwbRanging.Statistics

section Walls

variable {α : Type} [Arith α] {v : α}

theorem insertDescending_append_cons (hwall : ∀ w, Arith.lt w v = false) (w : α) (ws rest : List α) :
    insertDescending w (ws ++ v :: rest) = insertDescending w ws ++ v :: rest := by
  induction ws with
  | nil => simp [insertDescending, hwall w]
  | cons u ws ih =>
      rw [List.cons_append, insertDescending, insertDescending, ih]
      split <;> rfl

theorem insertDescending_wall (hwall : ∀ w, Arith.lt v w = false) (ws : List α) : insertDescending v ws = v :: ws := by
  cases ws with
  | nil => rfl
  | cons w ws => simp [insertDescending, hwall w]

/-- No value passes one that it cannot be compared with. -/
theorem ascending_append_cons (hleft : ∀ w, Arith.lt v w = false) (hright : ∀ w, Arith.lt w v = false)
    (xs ys : List α) : ascending (xs ++ v :: ys) = ascending xs ++ v :: ascending ys := by
  have hfrom (ws rest : List α) : ys.foldl (fun ws w => insertDescending w ws) (ws ++ v :: rest) =
      ys.foldl (fun ws w => insertDescending w ws) ws ++ v :: rest := by
    induction ys generalizing ws with
    | nil => rfl
    | cons y ys ih => rw [List.foldl_cons, List.foldl_cons, insertDescending_append_cons hright, ih]
  rw [ascending, List.foldl_append, List.foldl_cons, insertDescending_wall hleft, ← List.nil_append (v :: _), hfrom,
    List.reverse_append, List.reverse_cons, List.append_assoc, List.singleton_append]
  rfl

end Walls

section Filtered

theorem isClose_of_isNaN {v : Float} (h : v.isNaN = true) (threshold middle : Float) :
    isClose threshold middle v = false :=
  lt_left_of_isNaN (isNaN_abs (isNaN_sub_left h middle)) threshold

theorem isClose_to_isNaN {middle : Float} (h : middle.isNaN = true) (threshold v : Float) :
    isClose threshold middle v = false :=
  lt_left_of_isNaN (isNaN_abs (isNaN_sub_right h v)) threshold

/-- The values of a series that are numbers. -/
def numbers (values : List Float) : List Float :=
  values.filter fun v => !v.isNaN

theorem filter_isClose_numbers (threshold middle : Float) (values : List Float) :
    (numbers values).filter (isClose threshold middle) = values.filter (isClose threshold middle) := by
  rw [numbers, List.filter_filter]
  refine List.filter_congr fun v _ => ?_
  cases hv : v.isNaN with
  | true => rw [isClose_of_isNaN hv, Bool.false_and]
  | false => rw [Bool.not_false, Bool.and_true]

variable [UnorderedSort] {values : List Float} {threshold : Float}

theorem retained_of_median {outcome : FilterOutcome Float} (h : filterOutliers values threshold = some outcome)
    {middle : Float} (hmedian : median values = .ok middle) :
    outcome.retained = (numbers values).filter (isClose threshold middle) := by
  rw [filterOutliers_of_median hmedian] at h
  obtain rfl := Option.some.inj h
  exact (filter_isClose_numbers threshold middle values).symm

theorem isNaN_of_retained {outcome : FilterOutcome Float} (h : filterOutliers values threshold = some outcome)
    {v : Float} (hv : v ∈ outcome.retained) : v.isNaN = false := by
  cases hmedian : median values with
  | error interruption =>
      cases interruption <;> rw [filterOutliers, hmedian] at h <;> cases h
      cases hv
  | ok middle =>
      rw [retained_of_median h hmedian, numbers, List.filter_filter, List.mem_filter] at hv
      simpa using And.right (Bool.and_eq_true_iff.1 hv.2)

theorem ascending?_walls {xs ys : List Float} {v : Float} (hshort : (xs ++ v :: ys).length ≤ insertionLimit)
    (hv : v.isNaN = true) : ascending? (xs ++ v :: ys) = some (ascending xs ++ v :: ascending ys) := by
  rw [ascending?_of_isSortable (isSortable_of_short hshort),
    ascending_append_cons (lt_left_of_isNaN hv) (lt_right_of_isNaN hv)]

/-- What stays are the numbers that are close to what the sort has put into the middle: those that stay of the numbers
alone, if that is their median, and none at all if it is no number itself. A short series is always filtered, and its
sort works on each side of what is no number apart. -/
theorem filterOutliers_retains_numbers (values : List Float) (threshold : Float) :
    (∀ outcome, filterOutliers values threshold = some outcome →
      (∀ v ∈ outcome.retained, v.isNaN = false) ∧
      ∀ middle, median values = .ok middle →
        outcome.retained = (numbers values).filter (isClose threshold middle) ∧
        (median (numbers values) = .ok middle →
          (filterOutliers (numbers values) threshold).map FilterOutcome.retained = some outcome.retained) ∧
        (middle.isNaN = true → outcome.retained = [])) ∧
    (values.length ≤ insertionLimit →
      (filterOutliers values threshold).isSome = true ∧
      ∀ xs v ys, values = xs ++ v :: ys → v.isNaN = true →
        ascending? values = some (ascending xs ++ v :: ascending ys)) := by
  refine ⟨fun outcome h => ⟨fun v => isNaN_of_retained h, fun middle hmiddle => ?_⟩, fun hshort => ⟨?_, ?_⟩⟩
  · have hretained := retained_of_median h hmiddle
    refine ⟨hretained, fun hnumbers => ?_, fun hnan => ?_⟩
    · rw [filterOutliers_of_median hnumbers, Option.map_some, hretained]
    · rw [hretained]
      exact List.filter_eq_nil_iff.2 fun v _ => by simp [isClose_to_isNaN hnan]
  · rw [Option.isSome_iff_ne_none, ne_eq, filterOutliers_eq_none_iff,
      ascending?_of_isSortable (isSortable_of_short hshort)]
    exact Option.some_ne_none _
  · rintro xs v ys rfl hv
    exact ascending?_walls hshort hv

end Filtered

/-- Behind a value that is no number the sort begins anew, and here it is the least number that comes into the
middle. -/
theorem filterOutliers_retains_numbers_behind_wall :
    (filterOutliers [9, 0 / 0, 1, 2, 3] 2).map FilterOutcome.retained = some ([1, 2] : List Float) ∧
      (filterOutliers (numbers [9, 0 / 0, 1, 2, 3]) 2).map FilterOutcome.retained = some [1, 2, 3] := by
  decide +kernel

end UwbRanging.Statistics
