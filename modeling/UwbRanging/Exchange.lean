import UwbRanging.Length
import UwbRanging.Timestamp

/-!
Double-sided two-way ranging. An initiator A and a replier B exchange three messages, and each stamps what it
sends and receives with its own clock:

    A             B
    tA1  ------>  rB1
    rA1  <------  tB1
    tA2  ------>  rB2

The clocks are not synchronised, so only intervals on one clock mean anything. Both estimators of the flight
time, and the time difference of arrival at a third node that overhears the exchange, are computed from such
intervals alone.
-/

namespace UwbRanging

/-- The six readings of one exchange, in the order of the messages. -/
structure Exchange where
  tA1 : Timestamp
  rB1 : Timestamp
  tB1 : Timestamp
  rA1 : Timestamp
  tA2 : Timestamp
  rB2 : Timestamp
  deriving DecidableEq

/-- The four one-clock intervals of an exchange, in ticks. -/
structure Intervals where
  /-- From `tA1` to `rA1`. -/
  roundTripInitiator : Nat
  /-- From `rA1` to `tA2`. -/
  replyInitiator : Nat
  /-- From `tB1` to `rB2`. -/
  roundTripReplier : Nat
  /-- From `rB1` to `tB1`. -/
  replyReplier : Nat
  deriving DecidableEq, Repr

/-- Which formula makes a flight time out of an exchange. -/
inductive Estimator where
  /-- The product of the round trips less the product of the replies, over the sum of all four. -/
  | asymmetric
  /-- Half of A's round trip less B's reply, the reply corrected by the drift between the clocks. -/
  | driftCompensated
  deriving DecidableEq, Repr

namespace Estimator

def render : Estimator → String
  | asymmetric => "asymmetric"
  | driftCompensated => "drift-compensated"

/-- The name of the estimator in saved files. -/
def name : Estimator → String
  | asymmetric => "Asymmetric"
  | driftCompensated => "DriftCompensated"

/-- Reads a name, ASCII letters of either case. The refusal shows the text in lower case. -/
def parse (s : String) : Except String Estimator :=
  let s := s.map Char.toLower
  if s ∈ ["asymmetric", "ds-twr"] then .ok asymmetric
  else if s ∈ ["drift", "drift-compensated"] then .ok driftCompensated
  else .error ("unknown estimator '" ++ s ++ "'")

end Estimator

variable {α : Type} [Arith α]

/-- The asymmetric estimate, in ticks of flight time. -/
def Intervals.asymmetricTof (iv : Intervals) : Except RangingError α :=
  let ra : α := Arith.ofNat iv.roundTripInitiator
  let da : α := Arith.ofNat iv.replyInitiator
  let rb : α := Arith.ofNat iv.roundTripReplier
  let db : α := Arith.ofNat iv.replyReplier
  let total := ra + da + rb + db
  if Arith.eq total Arith.zero then .error .degenerateExchange
  else .ok ((ra * rb - da * db) / total)

namespace Exchange

/-- Six raw readings in the order of the messages; the first that is too wide is refused. -/
def ofRaw (tA1 rB1 tB1 rA1 tA2 rB2 : Nat) : Except RangingError Exchange := do
  return {
    tA1 := ← Timestamp.ofRaw tA1
    rB1 := ← Timestamp.ofRaw rB1
    tB1 := ← Timestamp.ofRaw tB1
    rA1 := ← Timestamp.ofRaw rA1
    tA2 := ← Timestamp.ofRaw tA2
    rB2 := ← Timestamp.ofRaw rB2
  }

/-- The raw readings in the order of the messages. -/
def toRaw (e : Exchange) : List Nat :=
  [e.tA1, e.rB1, e.tB1, e.rA1, e.tA2, e.rB2].map Timestamp.ticks

def intervals (e : Exchange) : Intervals where
  roundTripInitiator := e.rA1.elapsedSince e.tA1
  replyInitiator := e.tA2.elapsedSince e.rA1
  roundTripReplier := e.rB2.elapsedSince e.tB1
  replyReplier := e.tB1.elapsedSince e.rB1

/-- The drift-compensated estimate, in ticks of A's clock. The drift is what A's whole part of the exchange
lasts longer than B's, relative to B's. -/
def driftCompensatedTof (e : Exchange) : Except RangingError α :=
  let own : α := Arith.ofNat (e.tA2.elapsedSince e.tA1)
  let other : α := Arith.ofNat (e.rB2.elapsedSince e.rB1)
  if Arith.eq other Arith.zero then .error .degenerateExchange
  else
    let drift := (own - other) / other
    let roundTrip : α := Arith.ofNat (e.rA1.elapsedSince e.tA1)
    let reply : α := Arith.ofNat (e.tB1.elapsedSince e.rB1)
    .ok (Arith.ratio 1 2 * (roundTrip - reply - drift * reply))

/-- The one-way flight time, in ticks. -/
def timeOfFlight (e : Exchange) : Estimator → Except RangingError α
  | .asymmetric => e.intervals.asymmetricTof
  | .driftCompensated => e.driftCompensatedTof

def distance (e : Exchange) (estimator : Estimator) : Except RangingError (Length α) := do
  return ⟨← e.timeOfFlight estimator, .ticks⟩

def render (e : Exchange) : String :=
  String.intercalate " " (List.zipWith (fun label (t : Timestamp) => label ++ "=" ++ t.render)
    ["t_a1", "r_b1", "t_b1", "r_a1", "t_a2", "r_b2"] [e.tA1, e.rB1, e.tB1, e.rA1, e.tA2, e.rB2])

end Exchange

/-- An exchange between anchors A and B that a listener overhears. -/
structure OverheardExchange where
  exchange : Exchange
  /-- Arrival of A's first message at the listener. -/
  rL1 : Timestamp
  /-- Arrival of B's reply at the listener. -/
  rL2 : Timestamp
  /-- Arrival of A's second message at the listener. -/
  rL3 : Timestamp
  deriving DecidableEq

/-- The listener's flight time from A less its flight time from B, in ticks of the listener's clock. -/
def OverheardExchange.timeDifference (o : OverheardExchange) : Except RangingError α :=
  let mA : α := Arith.ofNat (o.rL2.elapsedSince o.rL1)
  let mB : α := Arith.ofNat (o.rL3.elapsedSince o.rL2)
  let iv := o.exchange.intervals
  let ra : α := Arith.ofNat iv.roundTripInitiator
  let da : α := Arith.ofNat iv.replyInitiator
  if Arith.eq (ra + da) Arith.zero then .error .degenerateExchange
  else do
    let drift := (mA + mB) / (ra + da)
    let tof ← o.exchange.timeOfFlight .driftCompensated
    return drift * (ra - tof) - mA

end UwbRanging
