/-!
What a binary64 number is: not a number, an infinity, or an integer times a power of two. Texts of numbers
are computed from this form in exact integer arithmetic.
-/

namespace UwbRanging

inductive Binary64 where
  | nan
  | infinite (negative : Bool)
  /-- The magnitude is `mantissa` times two to the power of `exponent`. -/
  | finite (negative : Bool) (mantissa : Nat) (exponent : Int)
  deriving DecidableEq, Repr

namespace Binary64

/-- The bit that a number of full precision has in front of its fifty-two fraction bits. -/
def leadingOne : Nat :=
  1 <<< 52

/-- The highest of the sixty-four bits. -/
def signBit (negative : Bool) : Nat :=
  if negative then 1 <<< 63 else 0

/-- The exponent bits of an infinity, all eleven of them set. -/
def infiniteBits : Nat :=
  2047 * leadingOne

/-- Reads the sign bit, eleven exponent bits and fifty-two fraction bits. -/
def ofFloat (x : Float) : Binary64 :=
  let bits := x.toBits.toNat
  let negative := decide (signBit true ≤ bits)
  let biased : Nat := bits / leadingOne % 2048
  let fraction : Nat := bits % leadingOne
  if biased = 2047 then (if fraction = 0 then infinite negative else nan)
  else if biased = 0 then finite negative fraction (-1074)
  else finite negative (leadingOne + fraction) ((biased : Int) - 1075)

end Binary64

/-- A magnitude as a quotient of two counts. -/
structure Quotient where
  num : Nat
  den : Nat
  deriving Repr

namespace Quotient

/-- The quotient times a power of `base`. -/
def timesPower (q : Quotient) (base : Nat) : Int → Quotient
  | .ofNat e => ⟨q.num * base.pow e, q.den⟩
  | .negSucc e => ⟨q.num, q.den * base.pow (e + 1)⟩

/-- `mantissa` times two to the power of `exponent`, as a quotient. -/
def ofBinary (mantissa : Nat) (exponent : Int) : Quotient :=
  timesPower ⟨mantissa, 1⟩ 2 exponent

/-- `num / den` rounded to the nearest count, a half to the even neighbour. -/
def roundHalfEven (q : Quotient) : Nat :=
  let whole := q.num / q.den
  let twice := 2 * (q.num % q.den)
  if twice < q.den then whole
  else if q.den < twice then whole + 1
  else whole + whole % 2

/-- The quotient times ten to the power of `e`. -/
def scale (q : Quotient) (e : Int) : Quotient :=
  q.timesPower 10 e

/-- The exponent of the leading decimal digit: the `e` with ten to the `e` at most `q` and ten to the
`e + 1` above it, for a positive `q`. -/
def leadingExponent (q : Quotient) : Int :=
  if q.den ≤ q.num then ((Nat.toDigits 10 (q.num / q.den)).length : Int) - 1
  else
    let e : Int := (Nat.toDigits 10 (q.den / q.num)).length
    let scaled := q.scale (e - 1)
    if scaled.den ≤ scaled.num then -(e - 1) else -e

end Quotient

end UwbRanging
