import UwbRanging.Proofs.Exact.Rational
import UwbRanging.Proofs.Statistics.Summary

/-!
What a moving average is the average of. A running sum takes each value in and lets it out again, so in exact
arithmetic it is the sum of the window as long as all that has left the window were numbers. What is no number, or
infinite, does not leave the sum with the window, and from then on there is no average.
-/

namespace UwbRanging.Statistics

open Extended

section Window

variable {α : Type}

/-- The last `window` values of a series, or all of them. -/
def latest (window : Nat) (seen : List α) : List α :=
  seen.drop (seen.length - window)

/-- The values before the last `window` ones. -/
def departed (window : Nat) (seen : List α) : List α :=
  seen.take (seen.length - window)

variable {window : Nat} {seen : List α}

theorem length_latest (window : Nat) (seen : List α) : (latest window seen).length = min seen.length window := by
  rw [latest, List.length_drop]
  omega

theorem latest_eq_self (h : seen.length ≤ window) : latest window seen = seen := by
  rw [latest, Nat.sub_eq_zero_of_le h, List.drop_zero]

theorem departed_eq_nil (h : seen.length ≤ window) : departed window seen = [] := by
  rw [departed, Nat.sub_eq_zero_of_le h, List.take_zero]

/-- With each new value the oldest one leaves a window that is full. -/
theorem latest_concat {old : α} {rest : List α} (hlatest : latest window seen = old :: rest)
    (hfull : window ≤ seen.length) (v : α) :
    latest window (seen ++ [v]) = rest ++ [v] ∧ departed window (seen ++ [v]) = departed window seen ++ [old] := by
  have hdrop : seen.drop (seen.length - window + 1) = rest := by
    rw [← List.drop_drop, ← latest, hlatest, List.drop_one, List.tail_cons]
  have hold : seen[seen.length - window]? = some old := by
    rw [← List.head?_drop, ← latest, hlatest, List.head?_cons]
  have hpos : seen.length - window < seen.length := List.getElem?_eq_some_iff.1 hold |>.1
  have hlength : (seen ++ [v]).length - window = seen.length - window + 1 := by
    rw [List.length_append, List.length_singleton]
    omega
  rw [latest, departed, departed, hlength]
  constructor
  · rw [List.drop_append_of_le_length (by omega), hdrop]
  · rw [List.take_append_of_le_length (by omega), List.take_add_one, hold, Option.toList_some]

end Window

section Loop

variable {α : Type} [Arith α] {window count : Nat} (running v : α) (values : List α)

theorem movingAverageFrom_of_lt (h : count < window) (leaving : List α) :
    movingAverageFrom window count running leaving (v :: values) =
      (running + v) / Arith.ofNat (count + 1) ::
        movingAverageFrom window (count + 1) (running + v) leaving values := by
  rw [movingAverageFrom.eq_def]
  exact if_pos h

theorem movingAverageFrom_of_le (h : window ≤ count) (old : α) (leaving : List α) :
    movingAverageFrom window count running (old :: leaving) (v :: values) =
      (running + v - old) / Arith.ofNat window ::
        movingAverageFrom window count (running + v - old) leaving values := by
  rw [movingAverageFrom.eq_def]
  exact if_neg h.not_gt

variable {values}

theorem length_movingAverageFrom {leaving : List α} (h : values.length ≤ leaving.length) :
    (movingAverageFrom window count running leaving values).length = values.length := by
  induction values generalizing count running leaving with
  | nil => rfl
  | cons v values ih =>
      by_cases hfull : window ≤ count
      · cases leaving with
        | nil => simp at h
        | cons old leaving =>
            rw [movingAverageFrom_of_le _ _ _ hfull, List.length_cons, ih _ (Nat.le_of_succ_le_succ h),
              List.length_cons]
      · rw [movingAverageFrom_of_lt _ _ _ (by omega), List.length_cons, ih _ (Nat.le_of_succ_le h), List.length_cons]

theorem length_movingAverage (hwindow : 0 < window) (values : List α) :
    (movingAverage values window).length = values.length := by
  rw [movingAverage, if_neg hwindow.ne', length_movingAverageFrom _ le_rfl]

end Loop

section Averages

variable {K : Type} [Field K] [LinearOrder K] [FloorSemiring K] [SquareRoot K] {window : Nat}
  {seen : List (Extended K)}

/-- The sum of the window, unless something has left it that was not a finite number. -/
def windowSum (window : Nat) (seen : List (Extended K)) : Extended K :=
  if (departed window seen).all Arith.isFinite then Arith.sum (latest window seen) else nan

/-- The average over the window after the values seen so far. -/
def windowAverage (window : Nat) (seen : List (Extended K)) : Extended K :=
  windowSum window seen / Arith.ofNat (latest window seen).length

/-- While the window fills, each value is added. -/
theorem windowSum_concat_of_lt (h : seen.length < window) (v : Extended K) :
    windowSum window (seen ++ [v]) = windowSum window seen + v := by
  have hlength : (seen ++ [v]).length ≤ window := by
    rw [List.length_append]
    exact h
  rw [windowSum, windowSum, departed_eq_nil hlength, departed_eq_nil h.le, latest_eq_self hlength,
    latest_eq_self h.le, sum_concat]
  rfl

/-- Once it is full, each value is added and the oldest one taken away. -/
theorem windowSum_concat {old : Extended K} {rest : List (Extended K)} (hlatest : latest window seen = old :: rest)
    (hfull : window ≤ seen.length) (v : Extended K) :
    windowSum window (seen ++ [v]) = windowSum window seen + v - old := by
  obtain ⟨hnext, hgone⟩ := latest_concat hlatest hfull v
  have hsum : Arith.sum (old :: rest) + v = Arith.sum (rest ++ [v]) + old := by
    rw [sum_cons, add_swap, sum_concat]
  rw [windowSum, windowSum, hnext, hgone, hlatest, List.all_append]
  by_cases hfinite : (departed window seen).all Arith.isFinite = true
  · rw [hfinite, Bool.true_and, if_pos rfl, hsum]
    cases hold : Arith.isFinite old with
    | true =>
        obtain ⟨a, rfl⟩ := isFinite_iff.1 hold
        rw [add_sub_finite]
        simp [hold]
    | false =>
        rw [add_sub_of_not_isFinite hold]
        simp [hold]
  · rw [Bool.eq_false_iff.2 hfinite]
    simp

/-- The loop: what it has summed is the sum of the window, and what leaves next are the window and what comes after
it. -/
theorem movingAverageFrom_eq (hwindow : 0 < window) (seen rest : List (Extended K)) :
    movingAverageFrom window (min seen.length window) (windowSum window seen) (latest window seen ++ rest) rest =
      (List.range rest.length).map fun i => windowAverage window (seen ++ rest.take (i + 1)) := by
  induction rest generalizing seen with
  | nil => rfl
  | cons v rest ih =>
      have hrest := ih (seen ++ [v])
      have haverage : windowAverage window (seen ++ [v]) =
          windowSum window (seen ++ [v]) / Arith.ofNat (min (seen.length + 1) window) := by
        rw [windowAverage, length_latest, List.length_append, List.length_singleton]
      rw [List.length_append, List.length_singleton] at hrest
      simp only [List.append_assoc, List.singleton_append] at hrest
      simp only [List.length_cons, List.range_succ_eq_map, List.map_cons, List.map_map, Function.comp_def,
        Nat.succ_eq_add_one, List.take_succ_cons, List.take_zero]
      rw [← hrest, haverage]
      by_cases hfull : window ≤ seen.length
      · obtain ⟨old, window', hlatest⟩ : ∃ old window', latest window seen = old :: window' :=
          List.exists_cons_of_length_pos (by rw [length_latest]; omega)
        obtain ⟨hnext, -⟩ := latest_concat hlatest hfull v
        rw [hnext, hlatest, windowSum_concat hlatest hfull, Nat.min_eq_right hfull, Nat.min_eq_right (by omega),
          List.cons_append, movingAverageFrom_of_le _ _ _ le_rfl, List.append_assoc, List.singleton_append]
      · have hshort : seen.length + 1 ≤ window := by omega
        have hnext : latest window (seen ++ [v]) = latest window seen ++ [v] := by
          rw [latest_eq_self (by simpa using hshort), latest_eq_self (by omega)]
        rw [hnext, windowSum_concat_of_lt hshort, Nat.min_eq_left (by omega), Nat.min_eq_left hshort,
          movingAverageFrom_of_lt _ _ _ hshort, List.append_assoc, List.singleton_append]

theorem movingAverage_eq (hwindow : 0 < window) (values : List (Extended K)) :
    movingAverage values window =
      (List.range values.length).map fun i => windowAverage window (values.take (i + 1)) := by
  have hloop := movingAverageFrom_eq hwindow [] values
  have hstart : windowSum window ([] : List (Extended K)) = Arith.zero := by
    simp [windowSum, departed, latest, Arith.sum]
  rw [hstart, latest_eq_self (Nat.zero_le _)] at hloop
  rw [movingAverage, if_neg hwindow.ne']
  simpa using hloop

theorem getElem?_movingAverage (hwindow : 0 < window) {values : List (Extended K)} {i : Nat} (hi : i < values.length) :
    (movingAverage values window)[i]? = some (windowAverage window (values.take (i + 1))) := by
  rw [movingAverage_eq hwindow, List.getElem?_map, List.getElem?_range hi, Option.map_some]

theorem getLast?_movingAverage (hwindow : 0 < window) {values : List (Extended K)} (h : values ≠ []) :
    (movingAverage values window).getLast? = some (windowAverage window values) := by
  have hpos : 0 < values.length := List.length_pos_iff.2 h
  rw [List.getLast?_eq_getElem?, length_movingAverage hwindow, getElem?_movingAverage hwindow (by omega),
    List.take_of_length_le (by omega)]

/-- The average over a window is the mean of what is in it, if what has left it were finite numbers. -/
theorem exists_mean_latest (hwindow : 0 < window) (h : seen ≠ []) : ∃ m, mean (latest window seen) = .ok m ∧
    windowAverage window seen = if (departed window seen).all Arith.isFinite then m else nan := by
  have hpos : 0 < seen.length := List.length_pos_iff.2 h
  have hlatest : latest window seen ≠ [] := by
    rw [← List.length_pos_iff, length_latest]
    omega
  obtain ⟨m, hm⟩ := exists_mean hlatest
  refine ⟨m, hm, ?_⟩
  rw [mean, List.isEmpty_eq_false_iff.2 hlatest] at hm
  cases hm
  rw [windowAverage, windowSum]
  split <;> rfl

end Averages

end UwbRanging.Statistics
