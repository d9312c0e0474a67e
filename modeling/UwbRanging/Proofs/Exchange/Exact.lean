import Mathlib.Tactic.Ring
import UwbRanging.Exchange
import UwbRanging.Proofs.Exact.Extended

/-!
The estimates in exact arithmetic: quotients of the ticks between readings, wherever there is something to divide by.
-/

namespace UwbRanging

open Extended

variable {K : Type} [Field K] [LinearOrder K] [FloorSemiring K] [SquareRoot K]

theorem Intervals.asymmetricTof_exact (iv : Intervals) :
    (iv.asymmetricTof : Except RangingError (Extended K)) =
      if (iv.roundTripInitiator + iv.replyInitiator + iv.roundTripReplier + iv.replyReplier : K) = 0 then
        .error .degenerateExchange
      else .ok (finite ((iv.roundTripInitiator * iv.roundTripReplier - iv.replyInitiator * iv.replyReplier : K) /
        (iv.roundTripInitiator + iv.replyInitiator + iv.roundTripReplier + iv.replyReplier))) := by
  simp only [asymmetricTof, ofNat_eq, zero_eq, finite_add_finite, finite_mul_finite, finite_sub_finite, eq_finite,
    decide_eq_true_eq]
  split
  case isTrue => rfl
  case isFalse htotal => rw [finite_div_finite _ htotal]

/-- The reply is taken for as long as it lasted on A's clock. -/
theorem Exchange.driftCompensatedTof_exact (e : Exchange) :
    (e.driftCompensatedTof : Except RangingError (Extended K)) =
      if (e.rB2.elapsedSince e.rB1 : K) = 0 then .error .degenerateExchange
      else .ok (finite ((e.rA1.elapsedSince e.tA1 -
        e.tA2.elapsedSince e.tA1 / e.rB2.elapsedSince e.rB1 * e.tB1.elapsedSince e.rB1 : K) / 2)) := by
  simp only [driftCompensatedTof, ofNat_eq, zero_eq, finite_sub_finite, eq_finite, decide_eq_true_eq]
  split
  case isTrue => rfl
  case isFalse hother =>
    rw [finite_div_finite _ hother, ratio_eq 1 two_ne_zero]
    simp only [finite_sub_finite, finite_mul_finite, sub_div, div_self hother, Nat.cast_one, Nat.cast_ofNat]
    congr 2
    ring

theorem OverheardExchange.timeDifference_exact {o : OverheardExchange} {tof : K}
    (h : o.exchange.timeOfFlight .driftCompensated = .ok (finite tof))
    (howner : (o.exchange.intervals.roundTripInitiator + o.exchange.intervals.replyInitiator : K) ≠ 0) :
    (o.timeDifference : Except RangingError (Extended K)) =
      .ok (finite (((o.rL2.elapsedSince o.rL1 + o.rL3.elapsedSince o.rL2 : K) /
          (o.exchange.intervals.roundTripInitiator + o.exchange.intervals.replyInitiator)) *
        (o.exchange.intervals.roundTripInitiator - tof) - o.rL2.elapsedSince o.rL1)) := by
  simp only [timeDifference, ofNat_eq, zero_eq, finite_add_finite, eq_finite, howner, decide_false, Bool.false_eq_true,
    if_false, h, finite_div_finite _ howner]
  change Except.ok (_ - _) = _
  rw [finite_sub_finite, finite_mul_finite, finite_sub_finite]

end UwbRanging
