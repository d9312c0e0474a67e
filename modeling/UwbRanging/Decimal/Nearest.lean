import UwbRanging.Decimal.Binary64

/-!
The binary64 number nearest to a decimal.
-/

namespace UwbRanging

namespace Quotient

/-- The quotient over two to the power of `e`. -/
def unscaleBinary (q : Quotient) (e : Int) : Quotient :=
  q.timesPower 2 (-e)

/-- The exponent of the leading binary digit of a positive quotient. -/
def leadingBit (q : Quotient) : Int :=
  let e := (q.num.log2 : Int) - q.den.log2
  let unscaled := q.unscaleBinary e
  if unscaled.den ≤ unscaled.num then e else e - 1

/-- The magnitude nearest to `q`, a half to the even neighbour, as the bits of a number without sign. A
mantissa that rounding makes one bit longer carries into the exponent field, as it should; at the largest
exponent it carries into the infinity. -/
def nearestBits (q : Quotient) : Nat :=
  if q.num = 0 then 0
  else
    let e := max (q.leadingBit - 52) (-1074)
    min Binary64.infiniteBits ((e + 1074).toNat * Binary64.leadingOne + (q.unscaleBinary e).roundHalfEven)

end Quotient

namespace Decimal

/-- The number nearest to `digits` times ten to the power of `exponent`. Decimals beyond 10 to the 310 and
below 10 to the -330 are an infinity and a zero, and are not expanded. -/
def toFloat (negative : Bool) (digits : Nat) (exponent : Int) : Float :=
  let size : Int := digits.log2 * 30103 / 100000 + exponent
  let bits :=
    if digits = 0 ∨ size < -400 then 0
    else if 400 < size then Binary64.infiniteBits
    else ((Quotient.mk digits 1).scale exponent).nearestBits
  Float.ofBits (UInt64.ofNat (Binary64.signBit negative + bits))

end Decimal

end UwbRanging
