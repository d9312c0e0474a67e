import Mathlib.Algebra.Ring.Nat
import UwbRanging.Timestamp

/-!
Readings and the counts behind them. A reading shows a count up to whole periods, and so the ticks between two readings
are the difference of their counts up to whole periods: all of the difference, if that is less than a period.
-/

namespace UwbRanging.Timestamp

/-- What the clock shows when its counter stands at `count`. A counter may have started below zero. -/
def Shows (t : Timestamp) (count : Int) : Prop :=
  (t.ticks : Int) = count % clockPeriod

instance (t : Timestamp) (count : Int) : Decidable (t.Shows count) :=
  inferInstanceAs (Decidable ((t.ticks : Int) = count % clockPeriod))

theorem clockPeriod_eq : clockPeriod = 2 ^ 40 :=
  rfl

theorem shows_ticks (t : Timestamp) : t.Shows t.ticks := by
  have hlt : t.ticks < clockPeriod := t.ticks_lt
  exact (Int.emod_eq_of_lt (Int.natCast_nonneg _) (Int.ofNat_lt.2 hlt)).symm

theorem shows_wrap (count : Nat) : (wrap count).Shows count :=
  Int.natCast_emod count clockPeriod

section Elapsed

variable {later earlier : Timestamp} {n m : Int}

/-- Whichever of the two readings is the greater one, the ticks in between are the same remainder. -/
theorem Shows.elapsedSince_eq (hlater : later.Shows n) (hearlier : earlier.Shows m) :
    (later.elapsedSince earlier : Int) = (n - m) % clockPeriod := by
  have hlt : later.ticks < clockPeriod := later.ticks_lt
  have hlt' : earlier.ticks < clockPeriod := earlier.ticks_lt
  unfold Shows at hlater hearlier
  unfold elapsedSince
  rw [clockPeriod_eq] at *
  split <;> omega

/-- Within one period no tick is lost. -/
theorem Shows.elapsedSince_of_lt (hlater : later.Shows n) (hearlier : earlier.Shows m) (hle : m ≤ n)
    (hlt : n - m < clockPeriod) : (later.elapsedSince earlier : Int) = n - m := by
  rw [hlater.elapsedSince_eq hearlier, Int.emod_eq_of_lt (Int.sub_nonneg.2 hle) hlt]

/-- No ticks have passed only if the clock shows the same. -/
theorem eq_of_elapsedSince_eq_zero (h : later.elapsedSince earlier = 0) : later = earlier := by
  have hearlier : earlier.ticks < clockPeriod := earlier.ticks_lt
  obtain ⟨l, hl⟩ := later
  obtain ⟨e, he⟩ := earlier
  simp only [elapsedSince] at h hearlier
  congr
  split at h <;> omega

theorem elapsedSince_eq_zero_iff : later.elapsedSince earlier = 0 ↔ later = earlier := by
  constructor
  · exact eq_of_elapsedSince_eq_zero
  · rintro rfl
    simp [elapsedSince]

end Elapsed

theorem elapsedSince_lt (later earlier : Timestamp) : later.elapsedSince earlier < 2 ^ 40 := by
  have hremainder := later.shows_ticks.elapsedSince_eq earlier.shows_ticks
  rw [clockPeriod_eq] at hremainder
  omega

/-- Two intervals in a row that are together shorter than a period add up to the interval over both. -/
theorem elapsedSince_add {first second third : Timestamp}
    (h : second.elapsedSince first + third.elapsedSince second < clockPeriod) :
    third.elapsedSince first = second.elapsedSince first + third.elapsedSince second := by
  have hfirst := second.shows_ticks.elapsedSince_eq first.shows_ticks
  have hsecond := third.shows_ticks.elapsedSince_eq second.shows_ticks
  have hboth := third.shows_ticks.elapsedSince_eq first.shows_ticks
  rw [clockPeriod_eq] at *
  omega

end UwbRanging.Timestamp
