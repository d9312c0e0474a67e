/-!
What can go wrong between a raw clock reading and a summary.
-/

namespace UwbRanging

inductive RangingError where
  /-- A clock reading wider than 40 bits. -/
  | invalidTimestamp (raw : Nat)
  /-- The intervals of an exchange leave nothing to divide by. -/
  | degenerateExchange
  /-- A statistic of no values. -/
  | emptyInput
  /-- A confidence level outside the open unit interval. -/
  | invalidConfidence
  /-- A quantile at a probability outside the open unit interval. -/
  | invalidProbability
  deriving DecidableEq, Repr

/-- Digits to base sixteen in lower case, without leading zeros. -/
def hexDigits (n : Nat) : String :=
  String.ofList (Nat.toDigits 16 n)

namespace RangingError

def message : RangingError → String
  | invalidTimestamp raw => "timestamp 0x" ++ hexDigits raw ++ " does not fit the 40-bit radio clock"
  | degenerateExchange => "degenerate exchange: all ranging intervals are zero"
  | emptyInput => "empty input sequence"
  | invalidConfidence => "confidence level must lie strictly between 0 and 1"
  | invalidProbability => "probability must lie strictly between 0 and 1"

end RangingError

/-- How a computation ends that comes to no result. -/
inductive Interruption where
  | failed (error : RangingError)
  /-- It breaks off, and the program with it. -/
  | brokenOff
  deriving DecidableEq, Repr

end UwbRanging
