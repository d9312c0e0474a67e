import UwbRanging.Decimal.Binary64

/-!
Numbers written with a fixed count of decimal places or of significant digits, the exact binary value rounded
half to even.
-/

namespace UwbRanging.Decimal

def signed (negative : Bool) (s : String) : String :=
  if negative then "-" ++ s else s

def infinity (negative : Bool) : String :=
  signed negative "inf"

/-- The decimal digits of `n`, at least `width` of them. -/
def paddedDigits (width n : Nat) : List Char :=
  let ds := Nat.toDigits 10 n
  List.replicate (width - ds.length) '0' ++ ds

/-- `n` over ten to the power of `places`, with a point. -/
def withPlaces (places n : Nat) : String :=
  let ds := paddedDigits (places + 1) n
  let whole := ds.length - places
  String.ofList (if places = 0 then ds else ds.take whole ++ '.' :: ds.drop whole)

/-- `x` to `places` decimal places, never with an exponent. The sign of a negative zero stays. -/
def fixed (places : Nat) (x : Float) : String :=
  match Binary64.ofFloat x with
  | .nan => "NaN"
  | .infinite negative => infinity negative
  | .finite negative m e =>
    signed negative (withPlaces places ((Quotient.ofBinary m e).scale places).roundHalfEven)

/-- `x` to `places + 1` significant digits, one of them before the point, and the power of ten. A zero has
no sign. -/
def scientific (places : Nat) (x : Float) : String :=
  match Binary64.ofFloat x with
  | .nan => "NaN"
  | .infinite negative => infinity negative
  | .finite negative m e =>
    if m = 0 then withPlaces places 0 ++ "e0"
    else
      let q := Quotient.ofBinary m e
      let lead := q.leadingExponent
      let digits := (q.scale (places - lead)).roundHalfEven
      if digits < Nat.pow 10 (places + 1) then
        signed negative (withPlaces places digits ++ "e" ++ toString lead)
      else signed negative (withPlaces places (Nat.pow 10 places) ++ "e" ++ toString (lead + 1))

end UwbRanging.Decimal
