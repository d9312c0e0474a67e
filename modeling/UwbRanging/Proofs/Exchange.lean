import UwbRanging.Proofs.Exchange.Degenerate

/-!
The estimates from six readings. The drift-compensated one never overflows, and readings that have it also have the
asymmetric one.
-/

namespace UwbRanging

namespace Timestamp

variable (later earlier : Timestamp)

theorem count_elapsedSince : Count 55 (Arith.ofNat (later.elapsedSince earlier) : Float) :=
  count_ofNat (Nat.lt_trans (later.elapsedSince_lt earlier) (by decide))

theorem positive_elapsedSince {later earlier : Timestamp} (h : later.elapsedSince earlier ≠ 0) :
    Positive 55 (Arith.ofNat (later.elapsedSince earlier) : Float) :=
  positive_ofNat (Nat.pos_of_ne_zero h) (Nat.lt_trans (later.elapsedSince_lt earlier) (by decide))

end Timestamp

namespace Exchange

variable {e : Exchange} {tof : Float}

/-- There is a drift-compensated estimate only if time passes on the clock of the replier. -/
theorem elapsed_of_driftCompensatedTof (h : e.driftCompensatedTof = .ok tof) : e.rB2.elapsedSince e.rB1 ≠ 0 := by
  intro hzero
  have hequal : Arith.eq (Arith.ofNat 0 : Float) Arith.zero = true := rfl
  rw [driftCompensatedTof, hzero] at h
  simp only [hequal, if_true] at h
  cases h

theorem below_driftCompensatedTof (h : e.driftCompensatedTof = .ok tof) : Below 173 tof := by
  have hother := Timestamp.positive_elapsedSince (elapsed_of_driftCompensatedTof h)
  have hne := hother.eq_zero
  have hown := e.tA2.count_elapsedSince e.tA1
  have hroundTrip := e.rA1.count_elapsedSince e.tA1
  have hreply := e.tB1.count_elapsedSince e.rB1
  have hdrift := (hown.below.sub hother.below (by decide) (by decide)).div hother (by decide) (by decide)
  have hcorrection := hdrift.mul hreply.below (by decide) (by decide)
  have hdifference := hroundTrip.below.sub hreply.below (by decide) (by decide)
  have hdouble := (hdifference.mono (by decide)).sub hcorrection (by decide) (by decide)
  have hhalf : Below 1 (Arith.ratio 1 2 : Float) := by decide +kernel
  simp only [driftCompensatedTof, hne, Bool.false_eq_true, if_false] at h
  cases h
  exact (hhalf.mul hdouble (by decide) (by decide)).mono (by decide)

theorem below_valueIn_centimeters (h : e.driftCompensatedTof = .ok tof) :
    Below 184 ((Length.mk tof .ticks).valueIn .centimeters) := by
  have hfactor : Below 10 (LengthUnit.ticks.factorTo .centimeters : Float) := by decide +kernel
  exact (below_driftCompensatedTof h).mul hfactor (by decide) (by decide)

theorem exists_timeOfFlight (h : e.driftCompensatedTof = .ok tof) (estimator : Estimator) :
    ∃ tof' : Float, e.timeOfFlight estimator = .ok tof' := by
  have hmoves : e.rB1 ≠ e.rB2 := fun hstill =>
    elapsed_of_driftCompensatedTof h (Timestamp.elapsedSince_eq_zero_iff.2 hstill.symm)
  exact exists_timeOfFlight_of_ne hmoves estimator

end Exchange

end UwbRanging
