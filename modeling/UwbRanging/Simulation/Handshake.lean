import UwbRanging.Exchange
import UwbRanging.Simulation.RandomSource

/-!
The simulation of one exchange. Time runs in ticks of A's clock from A's first message on. Both clocks start
anywhere, B's runs a little too fast or too slow, and what is received is stamped a little too early or too
late.
-/

namespace UwbRanging

/-- What chance decides about an exchange. -/
structure Handshake (α : Type) where
  /-- A's clock at the start, in ticks. -/
  offsetA : α
  /-- B's clock at the start, in ticks. -/
  offsetB : α
  /-- How much faster than A's clock B's runs, relative to A's. -/
  driftB : α
  /-- By how many ticks the three receptions are stamped too late. -/
  jitterB1 : α
  jitterA1 : α
  jitterB2 : α

namespace Handshake

variable {α : Type} [Arith α]

/-- The ticks between receiving a message and answering it. -/
def replyDelay : α :=
  Arith.ofNat 40000000

/-- The greatest drift, in parts per million. -/
def maxDrift : α :=
  Arith.ofNat 20

/-- A's reading at a time. -/
def clockA (h : Handshake α) (time : α) : Timestamp :=
  .wrap (Arith.toCount (h.offsetA + time))

/-- B's reading at a time. -/
def clockB (h : Handshake α) (time : α) : Timestamp :=
  .wrap (Arith.toCount (h.offsetB + time * (Arith.one + h.driftB)))

/-- The readings of an exchange with the flight time `tof`, in ticks. -/
def exchange (h : Handshake α) (tof : α) : Exchange :=
  let tA1 := Arith.zero
  let rB1 := tA1 + tof + h.jitterB1
  let tB1 := rB1 + replyDelay
  let rA1 := tB1 + tof + h.jitterA1
  let tA2 := rA1 + replyDelay
  let rB2 := tA2 + tof + h.jitterB2
  ⟨h.clockA tA1, h.clockB rB1, h.clockB tB1, h.clockA rA1, h.clockA tA2, h.clockB rB2⟩

/-- A jitter of at most `noise` ticks to either side. -/
def drawJitter (noise : α) : Random α :=
  if Arith.lt Arith.zero noise then Random.between (-noise) noise else return Arith.zero

def draw (noise : α) : Random (Handshake α) := do
  let offsetA ← Random.between Arith.zero (Arith.ofNat clockPeriod)
  let offsetB ← Random.between Arith.zero (Arith.ofNat clockPeriod)
  let drift ← Random.between (-maxDrift) maxDrift
  let jitterB1 ← drawJitter noise
  let jitterA1 ← drawJitter noise
  let jitterB2 ← drawJitter noise
  return ⟨offsetA, offsetB, drift * Arith.ratio 1 1000000, jitterB1, jitterA1, jitterB2⟩

end Handshake

end UwbRanging
