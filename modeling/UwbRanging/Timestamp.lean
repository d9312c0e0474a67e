import UwbRanging.RangingError

/-!
Readings of the free-running 40-bit radio clock, which wraps about every 17 seconds, and the ticks between
two readings.
-/

namespace UwbRanging

def timestampBits : Nat :=
  40

/-- The number of ticks after which the clock shows the same reading again. -/
def clockPeriod : Nat :=
  1 <<< timestampBits

def timestampMax : Nat :=
  clockPeriod - 1

/-- A reading of the radio clock, in ticks. -/
structure Timestamp where
  ticks : Nat
  ticks_lt : ticks < clockPeriod
  deriving DecidableEq

namespace Timestamp

/-- Refuses what is wider than the clock. -/
def ofRaw (raw : Nat) : Except RangingError Timestamp :=
  if h : raw < clockPeriod then .ok ⟨raw, h⟩ else .error (.invalidTimestamp raw)

/-- The reading of a counter that has run for `count` ticks. -/
def wrap (count : Nat) : Timestamp :=
  ⟨count % clockPeriod, Nat.mod_lt _ (by decide)⟩

/-- The ticks from `earlier` to `later` if the clock wrapped at most once in between. -/
def elapsedSince (later earlier : Timestamp) : Nat :=
  if later.ticks < earlier.ticks then (clockPeriod - earlier.ticks) + later.ticks
  else later.ticks - earlier.ticks

/-- Ten hexadecimal digits after `0x`. -/
def render (t : Timestamp) : String :=
  let digits := hexDigits t.ticks
  "0x" ++ String.ofList (List.replicate (10 - digits.length) '0') ++ digits

end Timestamp

/-- The ticks from the raw reading `low` to the later raw reading `high`; the later one is checked first. -/
def overflowCorrectedDiff (high low : Nat) : Except RangingError Nat := do
  let high ← Timestamp.ofRaw high
  let low ← Timestamp.ofRaw low
  return high.elapsedSince low

end UwbRanging
