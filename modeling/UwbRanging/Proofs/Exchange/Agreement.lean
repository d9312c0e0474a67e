import Mathlib.Data.Sign.Basic
import Mathlib.Tactic.FieldSimp
import UwbRanging.Proofs.Exchange.Degenerate

/-!
The two estimates of an exchange are two readings of one quantity: the product of the round trips less the product of
the replies. The asymmetric estimator divides it by the sum of both durations, the drift-compensated one by twice the
duration on B's clock. Nothing is assumed about where the readings come from but that no node takes part for a whole
period of its clock.
-/

namespace UwbRanging

open Extended

/-- What both estimators divide, in ticks squared. -/
def Intervals.contrast {K : Type} [Field K] (iv : Intervals) : K :=
  iv.roundTripInitiator * iv.roundTripReplier - iv.replyInitiator * iv.replyReplier

namespace Exchange

variable {e : Exchange}

/-- The duration on A's clock is measured from end to end, and is that of A's two intervals. -/
theorem elapsedSince_initiator (ha : e.intervals.roundTripInitiator + e.intervals.replyInitiator < clockPeriod) :
    e.tA2.elapsedSince e.tA1 = e.intervals.roundTripInitiator + e.intervals.replyInitiator :=
  Timestamp.elapsedSince_add ha

theorem elapsedSince_replier (hb : e.intervals.roundTripReplier + e.intervals.replyReplier < clockPeriod) :
    e.rB2.elapsedSince e.rB1 = e.intervals.roundTripReplier + e.intervals.replyReplier := by
  rw [Nat.add_comm] at hb ⊢
  exact Timestamp.elapsedSince_add hb

section Exact

variable {K : Type} [Field K] [LinearOrder K] [FloorSemiring K] [SquareRoot K]

theorem asymmetric_eq_contrast (hpos : 0 < e.intervals.roundTripReplier + e.intervals.replyReplier) :
    (e.timeOfFlight .asymmetric : Except RangingError (Extended K)) =
      .ok (finite (e.intervals.contrast / (e.intervals.roundTripInitiator + e.intervals.replyInitiator +
        (e.intervals.roundTripReplier + e.intervals.replyReplier)))) := by
  have htotal : (e.intervals.roundTripInitiator + e.intervals.replyInitiator + e.intervals.roundTripReplier +
      e.intervals.replyReplier : K) ≠ 0 := by
    norm_cast
    omega
  rw [timeOfFlight, Intervals.asymmetricTof_exact, if_neg htotal, add_assoc]
  rfl

theorem driftCompensated_eq_contrast
    (ha : e.intervals.roundTripInitiator + e.intervals.replyInitiator < clockPeriod)
    (hb : e.intervals.roundTripReplier + e.intervals.replyReplier < clockPeriod)
    (hpos : 0 < e.intervals.roundTripReplier + e.intervals.replyReplier) :
    (e.timeOfFlight .driftCompensated : Except RangingError (Extended K)) =
      .ok (finite (e.intervals.contrast / (2 * (e.intervals.roundTripReplier + e.intervals.replyReplier)))) := by
  have hother : (e.intervals.roundTripReplier + e.intervals.replyReplier : K) ≠ 0 := by
    norm_cast
    omega
  have hroundTrip : e.rA1.elapsedSince e.tA1 = e.intervals.roundTripInitiator := rfl
  have hreply : e.tB1.elapsedSince e.rB1 = e.intervals.replyReplier := rfl
  rw [timeOfFlight, driftCompensatedTof_exact, elapsedSince_initiator ha, elapsedSince_replier hb, hroundTrip, hreply]
  push_cast
  rw [if_neg hother]
  congr 2
  unfold Intervals.contrast
  field_simp
  ring

end Exact

variable {K : Type} [Field K] [LinearOrder K] [IsStrictOrderedRing K]

/-- One number divided by two positive ones. -/
theorem quotients_agree_iff (contrast : K) {own other : K} (hown : 0 ≤ own) (hother : 0 < other) :
    2 * other * (contrast / (2 * other)) = (own + other) * (contrast / (own + other)) ∧
      SignType.sign (contrast / (own + other)) = SignType.sign (contrast / (2 * other)) ∧
      (contrast / (own + other) = contrast / (2 * other) ↔ contrast / (own + other) = 0 ∨ own = other) := by
  have htwice : 0 < 2 * other := mul_pos two_pos hother
  have htotal : 0 < own + other := add_pos_of_nonneg_of_pos hown hother
  have hproportion : 2 * other * (contrast / (2 * other)) = (own + other) * (contrast / (own + other)) := by
    rw [mul_div_cancel₀ _ htwice.ne', mul_div_cancel₀ _ htotal.ne']
  have hsign {divisor : K} (hdivisor : 0 < divisor) : SignType.sign (contrast / divisor) = SignType.sign contrast := by
    rw [div_eq_mul_inv, sign_mul, sign_pos (inv_pos.2 hdivisor), mul_one]
  refine ⟨hproportion, (hsign htotal).trans (hsign htwice).symm, ?_⟩
  calc contrast / (own + other) = contrast / (2 * other)
      ↔ contrast * (2 * other) = contrast * (own + other) := div_eq_div_iff htotal.ne' htwice.ne'
    _ ↔ 2 * other = own + other ∨ contrast = 0 := mul_eq_mul_left_iff
    _ ↔ contrast / (own + other) = 0 ∨ own = other := by
      rw [div_eq_zero_iff, or_iff_left htotal.ne', or_comm, two_mul, add_left_inj, eq_comm (a := other)]

variable [FloorSemiring K] [SquareRoot K]

/-- Both estimators succeed, also in binary64, if time passes for the replier. In exact arithmetic the estimates are in
the inverse proportion of what is divided by. So they have the same sign, and they are equal only at zero or if both
nodes have measured the same duration. -/
theorem estimates_proportional (ha : e.intervals.roundTripInitiator + e.intervals.replyInitiator < clockPeriod)
    (hb : e.intervals.roundTripReplier + e.intervals.replyReplier < clockPeriod)
    (hpos : 0 < e.intervals.roundTripReplier + e.intervals.replyReplier) :
    (∀ estimator, ∃ tof : Float, e.timeOfFlight estimator = .ok tof) ∧
      ∃ asymmetric driftCompensated : K,
        e.timeOfFlight .asymmetric = .ok (finite asymmetric) ∧
        e.timeOfFlight .driftCompensated = .ok (finite driftCompensated) ∧
        2 * (e.intervals.roundTripReplier + e.intervals.replyReplier) * driftCompensated =
          (e.intervals.roundTripInitiator + e.intervals.replyInitiator + e.intervals.roundTripReplier +
            e.intervals.replyReplier) * asymmetric ∧
        SignType.sign asymmetric = SignType.sign driftCompensated ∧
        (asymmetric = driftCompensated ↔ asymmetric = 0 ∨
          e.intervals.roundTripInitiator + e.intervals.replyInitiator =
            e.intervals.roundTripReplier + e.intervals.replyReplier) := by
  have hne : e.rB1 ≠ e.rB2 := by
    intro hstill
    rw [← elapsedSince_replier hb, Timestamp.elapsedSince_eq_zero_iff.2 hstill.symm] at hpos
    exact Nat.lt_irrefl 0 hpos
  have hown : (0 : K) ≤ (e.intervals.roundTripInitiator + e.intervals.replyInitiator : ℕ) := Nat.cast_nonneg _
  have hother : (0 : K) < (e.intervals.roundTripReplier + e.intervals.replyReplier : ℕ) := Nat.cast_pos.2 hpos
  obtain ⟨hproportion, hsign, hagree⟩ := quotients_agree_iff e.intervals.contrast hown hother
  rw [Nat.cast_inj] at hagree
  push_cast at hproportion hsign hagree
  refine ⟨exists_timeOfFlight_of_ne hne, _, _, asymmetric_eq_contrast hpos, driftCompensated_eq_contrast ha hb hpos, ?_,
    hsign, hagree⟩
  rw [hproportion, ← add_assoc]

/-- For A the exchange lasts 210 ticks, for B 120. The clock of B wraps before the reply. -/
def disagreeingExchange : Exchange :=
  ⟨.wrap 700, .wrap (2 ^ 40 - 50), .wrap 40, .wrap 900, .wrap 910, .wrap 70⟩

theorem estimates_proportional_disagreeing :
    disagreeingExchange.intervals = ⟨200, 10, 30, 90⟩ ∧
      (∃ tof : Float, disagreeingExchange.timeOfFlight .driftCompensated = .ok tof) ∧
      disagreeingExchange.timeOfFlight .asymmetric = .ok (finite (170 / 11 : ℚ)) ∧
      disagreeingExchange.timeOfFlight .driftCompensated = .ok (finite (85 / 4 : ℚ)) := by
  have hintervals : disagreeingExchange.intervals = ⟨200, 10, 30, 90⟩ := by decide
  have hasymmetric : disagreeingExchange.timeOfFlight .asymmetric = .ok (finite (170 / 11 : ℚ)) := by
    refine toOption_eq_some_iff.1 ?_
    decide +kernel
  obtain ⟨hfloat, asymmetric, driftCompensated, hestimate, hestimate', hproportion, -⟩ :=
    estimates_proportional (K := ℚ) (e := disagreeingExchange) (by decide) (by decide) (by decide)
  obtain rfl : asymmetric = 170 / 11 := by
    rw [hasymmetric] at hestimate
    exact (Extended.finite.inj (Except.ok.inj hestimate)).symm
  obtain rfl : driftCompensated = 85 / 4 := by
    rw [hintervals] at hproportion
    norm_num at hproportion
    linarith
  exact ⟨hintervals, hfloat .driftCompensated, hasymmetric, hestimate'⟩

end Exchange

end UwbRanging
