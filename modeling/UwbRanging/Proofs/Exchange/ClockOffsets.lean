import UwbRanging.Exchange
import UwbRanging.Proofs.Timestamp

/-!
Where a clock started does not matter. An offset that is added to all readings of one clock moves the place where the
clock wraps, but the ticks between any two of them stay the same; and no estimate compares the readings of two clocks.
-/

namespace UwbRanging

/-- The reading of a counter that is `offset` ticks ahead. -/
def Timestamp.advance (t : Timestamp) (offset : Nat) : Timestamp :=
  .wrap (t.ticks + offset)

/-- The readings with A's clock `a` ticks ahead, and B's `b` ticks. -/
def Exchange.advance (e : Exchange) (a b : Nat) : Exchange where
  tA1 := e.tA1.advance a
  rB1 := e.rB1.advance b
  tB1 := e.tB1.advance b
  rA1 := e.rA1.advance a
  tA2 := e.tA2.advance a
  rB2 := e.rB2.advance b

/-- The same, and the listener's clock `l` ticks ahead. -/
def OverheardExchange.advance (o : OverheardExchange) (a b l : Nat) : OverheardExchange where
  exchange := o.exchange.advance a b
  rL1 := o.rL1.advance l
  rL2 := o.rL2.advance l
  rL3 := o.rL3.advance l

/-- Two readings of one clock are moved together. -/
@[simp] theorem Timestamp.elapsedSince_advance (later earlier : Timestamp) (offset : Nat) :
    (later.advance offset).elapsedSince (earlier.advance offset) = later.elapsedSince earlier := by
  have hmoved := (shows_wrap (later.ticks + offset)).elapsedSince_eq (shows_wrap (earlier.ticks + offset))
  have hremained := later.shows_ticks.elapsedSince_eq earlier.shows_ticks
  have hsame : ((later.ticks + offset : Nat) : Int) - (earlier.ticks + offset : Nat) = later.ticks - earlier.ticks := by
    omega
  rw [hsame, ← hremained] at hmoved
  exact Int.ofNat.inj hmoved

namespace Exchange

variable {α : Type} [Arith α] (e : Exchange) (a b : Nat)

theorem intervals_advance : (e.advance a b).intervals = e.intervals := by
  simp only [intervals, advance, Timestamp.elapsedSince_advance]

/-- The whole durations, too, are taken between two readings of one clock. -/
theorem driftCompensatedTof_advance :
    ((e.advance a b).driftCompensatedTof : Except RangingError α) = e.driftCompensatedTof := by
  simp only [driftCompensatedTof, advance, Timestamp.elapsedSince_advance]

theorem timeOfFlight_advance (estimator : Estimator) :
    ((e.advance a b).timeOfFlight estimator : Except RangingError α) = e.timeOfFlight estimator := by
  cases estimator with
  | asymmetric => rw [timeOfFlight, timeOfFlight, intervals_advance]
  | driftCompensated => exact driftCompensatedTof_advance e a b

end Exchange

/-- Whatever is added to all readings of A, to all of B and to all of the listener: the intervals are the same, and so
are both estimates of the flight time and the time difference, or their failure, in any arithmetic. -/
theorem OverheardExchange.estimates_advance {α : Type} [Arith α] (o : OverheardExchange) (a b l : Nat) :
    (o.advance a b l).exchange.intervals = o.exchange.intervals ∧
    (∀ estimator, ((o.advance a b l).exchange.timeOfFlight estimator : Except RangingError α) =
      o.exchange.timeOfFlight estimator) ∧
    ((o.advance a b l).timeDifference : Except RangingError α) = o.timeDifference := by
  have hintervals : (o.advance a b l).exchange.intervals = o.exchange.intervals := o.exchange.intervals_advance a b
  have htof (estimator : Estimator) : ((o.advance a b l).exchange.timeOfFlight estimator : Except RangingError α) =
      o.exchange.timeOfFlight estimator := o.exchange.timeOfFlight_advance a b estimator
  refine ⟨hintervals, htof, ?_⟩
  simp only [timeDifference, hintervals, htof]
  simp only [advance, Timestamp.elapsedSince_advance]

end UwbRanging
