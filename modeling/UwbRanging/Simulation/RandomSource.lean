import UwbRanging.Arith

/-!
Random numbers from an endless sequence of random 64-bit words. A draw breaks off if it is asked for something that is
not there, and it may go on for ever if no word ever fits.
-/

namespace UwbRanging

structure RandomSource where
  word : Nat → UInt64
  /-- How many words have been used. -/
  used : Nat

/-- Why nothing can be drawn. -/
inductive DrawError where
  /-- No number is at least the lower end and below the upper end. -/
  | emptyRange
  /-- The width of a range is no finite number. -/
  | rangeOverflow
  /-- Not between zero and one. -/
  | noProbability
  deriving DecidableEq, Repr

/-- A computation that chance has a part in. -/
abbrev Random :=
  StateT RandomSource (ExceptT DrawError Option)

namespace RandomSource

/-- Takes the next word. -/
def next : StateM RandomSource UInt64 := fun s =>
  (s.word s.used, { s with used := s.used + 1 })

/-- The words of a list, over and over. -/
def cycle (words : List UInt64) : RandomSource :=
  ⟨fun n => (words[n % words.length]?).getD 0, 0⟩

/-- A word whose bits hang on every bit of a given one. -/
def mix (z : UInt64) : UInt64 :=
  let z := (z ^^^ (z >>> 30)) * 0xbf58476d1ce4e5b9
  let z := (z ^^^ (z >>> 27)) * 0x94d049bb133111eb
  z ^^^ (z >>> 31)

/-- Words that hang on a seed. -/
def ofSeed (seed : UInt64) : RandomSource :=
  ⟨fun n => mix (seed + UInt64.ofNat (n + 1) * 0x9e3779b97f4a7c15), 0⟩

end RandomSource

variable {α : Type} [Arith α]

namespace Random

/-- What takes words and nothing else comes to an end. -/
def ofWords {β : Type} (f : StateM RandomSource β) : Random β := fun s =>
  pure (f.run s)

/-- The upper 52 bits of a word as a fraction of one. -/
def fraction (w : UInt64) : α :=
  Arith.ofNat (w >>> 12).toNat / Arith.ofNat (1 <<< 52)

/-- The point of a range that a word stands for. -/
def point (low high : α) (w : UInt64) : α :=
  fraction w * (high - low) + low

end Random

/-- The first point below the upper end of a range. -/
def RandomSource.firstBelow (s : RandomSource) (low high : α) : Option (α × RandomSource) :=
  let (w, rest) := next.run s
  let x := Random.point low high w
  if Arith.lt x high then some (x, rest) else rest |>.firstBelow low high
partial_fixpoint

namespace Random

/-- A number from `low` up to but not including `high`. -/
def between (low high : α) : Random α := do
  if !Arith.lt low high then throw .emptyRange
  if !Arith.isFinite (high - low) then throw .rangeOverflow
  fun s => (s.firstBelow low high).map .ok

/-- Whether something with the probability `p` happens. What is certain takes no word. -/
def happens (p : Float) : Random Bool := do
  if p == 1 then return true
  if !(0 ≤ p && p < 1) then throw .noProbability
  return (← ofWords RandomSource.next) < (p * Float.ofNat UInt64.size).toUInt64

end Random

end UwbRanging
