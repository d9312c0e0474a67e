import UwbRanging.Decimal.Fixed

/-!
The fewest decimal digits that read back to the same binary64 number, and among those the nearest.
-/

namespace UwbRanging.Decimal

/-- `digits` times ten to the power of `exponent`. -/
structure Digits where
  digits : Nat
  exponent : Int
  deriving DecidableEq, Repr

/-- The reals that round to a binary64 number lie between `low / den` and `high / den`; the ends belong to
them exactly if `closed`. -/
structure RoundingInterval where
  low : Nat
  value : Nat
  high : Nat
  den : Nat
  closed : Bool
  deriving Repr

/-- The interval reaches half way to the two neighbours. Below a power of two the neighbour is only half as
far away, unless the fraction has no more bits to give. -/
def RoundingInterval.of (mantissa : Nat) (exponent : Int) : RoundingInterval :=
  let below := if mantissa = Binary64.leadingOne ∧ -1074 < exponent then 1 else 2
  let unit := Quotient.ofBinary 1 (exponent - 2)
  { low := (4 * mantissa - below) * unit.num
    value := 4 * mantissa * unit.num
    high := (4 * mantissa + 2) * unit.num
    den := unit.den
    closed := mantissa % 2 = 0 }

/-- Whether `n` times ten to the power of `e` rounds to the number. -/
def RoundingInterval.holds (r : RoundingInterval) (n : Nat) (e : Int) : Bool :=
  let point := Quotient.scale ⟨n * r.den, 1⟩ e
  let low := r.low * point.den
  let high := r.high * point.den
  if r.closed then decide (low ≤ point.num) && decide (point.num ≤ high)
  else decide (low < point.num) && decide (point.num < high)

/-- The nearest multiple of ten to the power of `e` that rounds to the number, if there is one. -/
def RoundingInterval.onGrid? (r : RoundingInterval) (e : Int) : Option Digits :=
  let q := Quotient.scale ⟨r.value, r.den⟩ (-e)
  let below := q.num / q.den
  let nearest := q.roundHalfEven
  let other := if nearest = below then below + 1 else below
  if r.holds nearest e then some ⟨nearest, e⟩
  else if r.holds other e then some ⟨other, e⟩
  else none

/-- The shortest digits of a positive number. Grids are tried from the one above the leading digit, which a
number of few bits may round to, down to that of seventeen digits, on which every binary64 number is told from
its neighbours. -/
def shortestDigits (mantissa : Nat) (exponent : Int) : Digits :=
  let r := RoundingInterval.of mantissa exponent
  let lead := (Quotient.mk r.value r.den).leadingExponent
  let grids := (List.range 18).map fun (n : Nat) => lead + 1 - (n : Int)
  (grids.findSome? r.onGrid?).getD ⟨0, 0⟩

/-- `digits` times ten to the power of `exponent` without exponent, and with a fraction always. -/
def positional (d : Digits) : String :=
  match d.exponent with
  | .ofNat e => toString (d.digits * Nat.pow 10 e) ++ ".0"
  | .negSucc e => withPlaces (e + 1) d.digits

/-- The shortest text of `x`, never with an exponent and always with a fraction. -/
def shortest (x : Float) : String :=
  match Binary64.ofFloat x with
  | .nan => "NaN"
  | .infinite negative => infinity negative
  | .finite negative m e =>
    signed negative (if m = 0 then "0.0" else positional (shortestDigits m e))

end UwbRanging.Decimal
