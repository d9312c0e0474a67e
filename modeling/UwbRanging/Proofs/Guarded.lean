import UwbRanging.Arith
import UwbRanging.Timestamp

/-!
Arithmetic under guard. In place of a number that a division by zero has part in, and in place of a 64-bit word that an
operation cannot hold, there is a mark, and the mark stays in all that is computed from it. A computation that ends
without a mark has met neither.
-/

namespace UwbRanging

/-- A number, unless it comes from a division by zero. -/
inductive Guarded (α : Type) where
  | number (x : α)
  | dividedByZero

namespace Guarded

variable {α : Type}

section Operations

def map (f : α → α) : Guarded α → Guarded α
  | number x => number (f x)
  | dividedByZero => dividedByZero

def map₂ (f : α → α → α) : Guarded α → Guarded α → Guarded α
  | number x, number y => number (f x y)
  | _, _ => dividedByZero

def holds (p : α → Bool) : Guarded α → Bool
  | number x => p x
  | dividedByZero => false

def holds₂ (r : α → α → Bool) : Guarded α → Guarded α → Bool
  | number x, number y => r x y
  | _, _ => false

def div [Arith α] : Guarded α → Guarded α → Guarded α
  | number x, number y => if Arith.eq y Arith.zero then dividedByZero else number (x / y)
  | _, _ => dividedByZero

def toCount [Arith α] : Guarded α → Nat
  | number x => Arith.toCount x
  | dividedByZero => 0

end Operations

variable [Arith α]

instance : Arith (Guarded α) where
  add := map₂ (· + ·)
  sub := map₂ (· - ·)
  mul := map₂ (· * ·)
  div := div
  neg := map (- ·)
  abs := map Arith.abs
  sqrt := map Arith.sqrt
  lt := holds₂ Arith.lt
  eq := holds₂ Arith.eq
  isFinite := holds Arith.isFinite
  ofNat n := number (Arith.ofNat n)
  toCount := toCount

section Numbers

variable (x y : α)

@[simp] theorem number_add : (number x + number y : Guarded α) = number (x + y) :=
  rfl

@[simp] theorem number_sub : (number x - number y : Guarded α) = number (x - y) :=
  rfl

@[simp] theorem number_mul : (number x * number y : Guarded α) = number (x * y) :=
  rfl

theorem number_div {y : α} (hy : Arith.eq y Arith.zero = false) :
    (number x / number y : Guarded α) = number (x / y) := by
  change (if Arith.eq y Arith.zero then dividedByZero else number (x / y)) = number (x / y)
  rw [hy, if_neg Bool.false_ne_true]

@[simp] theorem eq_number : Arith.eq (number x : Guarded α) (number y) = Arith.eq x y :=
  rfl

@[simp] theorem ofNat_eq_number (n : Nat) : (Arith.ofNat n : Guarded α) = number (Arith.ofNat n) :=
  rfl

@[simp] theorem zero_eq_number : (Arith.zero : Guarded α) = number Arith.zero :=
  rfl

theorem ratio_eq_number (num : Nat) {den : Nat} (hden : Arith.eq (Arith.ofNat den : α) Arith.zero = false) :
    (Arith.ratio num den : Guarded α) = number (Arith.ratio num den) :=
  number_div _ hden

end Numbers

/-- A quotient whose divisor is looked at first. -/
theorem checked_quotient {ε : Type} (x y : α) (error : ε) :
    (if Arith.eq (number y) Arith.zero then .error error else .ok (number x / number y)) =
      (if Arith.eq y Arith.zero then .error error else Except.ok (x / y)).map number := by
  rw [zero_eq_number, eq_number]
  cases hy : Arith.eq y Arith.zero with
  | true => rfl
  | false =>
      rw [number_div x hy]
      rfl

end Guarded

/-- The sum of two words, if 64 bits hold it. -/
def addWords? (x y : UInt64) : Option UInt64 :=
  if x.toNat + y.toNat < UInt64.size then some (x + y) else none

/-- The difference of two words, if it is not below zero. -/
def subWords? (x y : UInt64) : Option UInt64 :=
  if y ≤ x then some (x - y) else none

/-- The ticks between two readings, computed in 64-bit words. -/
def Timestamp.elapsedWord? (later earlier : Timestamp) : Option UInt64 :=
  let late := UInt64.ofNat later.ticks
  let early := UInt64.ofNat earlier.ticks
  if late < early then do addWords? (← subWords? (UInt64.ofNat clockPeriod) early) late
  else subWords? late early

theorem addWords?_ofNat {m n : Nat} (h : m + n < UInt64.size) :
    addWords? (UInt64.ofNat m) (UInt64.ofNat n) = some (UInt64.ofNat (m + n)) := by
  have hm : (UInt64.ofNat m).toNat = m := UInt64.toNat_ofNat_of_lt' (Nat.lt_of_le_of_lt (Nat.le_add_right m n) h)
  have hn : (UInt64.ofNat n).toNat = n := UInt64.toNat_ofNat_of_lt' (Nat.lt_of_le_of_lt (Nat.le_add_left n m) h)
  rw [addWords?, hm, hn, if_pos h, UInt64.ofNat_add]

theorem subWords?_ofNat {m n : Nat} (h : n ≤ m) (hm : m < UInt64.size) :
    subWords? (UInt64.ofNat m) (UInt64.ofNat n) = some (UInt64.ofNat (m - n)) := by
  have hle : UInt64.ofNat n ≤ UInt64.ofNat m := (UInt64.ofNat_le_iff_le (Nat.lt_of_le_of_lt h hm) hm).2 h
  rw [subWords?, if_pos hle, UInt64.ofNat_sub h]

/-- No operation leaves the range of a word, whichever of the two readings is the greater one. -/
theorem Timestamp.elapsedWord?_eq (later earlier : Timestamp) :
    later.elapsedWord? earlier = some (UInt64.ofNat (later.elapsedSince earlier)) := by
  have hwide : clockPeriod + clockPeriod < UInt64.size := by decide
  have hlate : later.ticks < clockPeriod := later.ticks_lt
  have hearly : earlier.ticks < clockPeriod := earlier.ticks_lt
  have hless : UInt64.ofNat later.ticks < UInt64.ofNat earlier.ticks ↔ later.ticks < earlier.ticks :=
    UInt64.ofNat_lt_iff_lt (by omega) (by omega)
  simp only [elapsedWord?, elapsedSince, hless]
  split
  case isTrue =>
    rw [subWords?_ofNat (Nat.le_of_lt hearly) (by omega)]
    exact addWords?_ofNat (by omega)
  case isFalse h => exact subWords?_ofNat (Nat.le_of_not_lt h) (by omega)

end UwbRanging
