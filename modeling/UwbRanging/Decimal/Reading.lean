import UwbRanging.Decimal.Nearest

/-!
Reading a decimal number from text: sign, digits with an optional point, and an exponent.
-/

namespace UwbRanging.Decimal

/-- The value of a digit. -/
def digitValue (c : Char) : Nat :=
  c.toNat - '0'.toNat

/-- The value of a row of digits, after the digits of `n`. -/
def digitsValue (n : Nat) (ds : List Char) : Nat :=
  ds.foldl (fun n d => 10 * n + digitValue d) n

/-- A decimal number as it is written: the digits before and after the point and the exponent. -/
structure Written where
  negative : Bool
  whole : List Char
  fraction : List Char
  exponentNegative : Bool
  exponent : List Char
  deriving DecidableEq

def Written.toFloat (w : Written) : Float :=
  let e : Int := digitsValue 0 w.exponent
  Decimal.toFloat w.negative (digitsValue (digitsValue 0 w.whole) w.fraction)
    ((if w.exponentNegative then -e else e) - w.fraction.length)

/-- A leading sign, if there is one, and what follows it. -/
def splitSign : List Char → Bool × List Char
  | '-' :: s => (true, s)
  | '+' :: s => (false, s)
  | s => (false, s)

/-- The digits at the front, and what follows them. -/
def splitDigits (s : List Char) : List Char × List Char :=
  (s.takeWhile Char.isDigit, s.dropWhile Char.isDigit)

/-- The digits after a point at the front, if there is one, and what follows them. -/
def splitFraction : List Char → List Char × List Char
  | '.' :: s => splitDigits s
  | s => ([], s)

/-- The whole text as a decimal number: at least one digit before or after the point, and at least one in
the exponent if there is an exponent. -/
def Written.ofChars? (s : List Char) : Option Written :=
  let (negative, s) := splitSign s
  let (whole, s) := splitDigits s
  let (fraction, s) := splitFraction s
  if whole.isEmpty && fraction.isEmpty then none
  else match s with
    | [] => some ⟨negative, whole, fraction, false, []⟩
    | c :: s =>
      if c = 'e' ∨ c = 'E' then
        let (exponentNegative, s) := splitSign s
        let (exponent, s) := splitDigits s
        if exponent.isEmpty || !s.isEmpty then none
        else some ⟨negative, whole, fraction, exponentNegative, exponent⟩
      else none

def nan : Float :=
  Float.ofBits 0x7ff8000000000000

def infinite (negative : Bool) : Float :=
  Float.ofBits (UInt64.ofNat (Binary64.signBit negative + Binary64.infiniteBits))

/-- The whole text as a number: a decimal, or the words for the infinities and for not a number, ASCII
letters of either case, with an optional sign. -/
def ofString? (s : String) : Option Float :=
  match Written.ofChars? s.toList with
  | some w => some w.toFloat
  | none =>
    let (negative, word) := splitSign (s.toList.map Char.toLower)
    let word := String.ofList word
    if word = "nan" then some nan
    else if word = "inf" ∨ word = "infinity" then some (infinite negative)
    else none

end UwbRanging.Decimal
