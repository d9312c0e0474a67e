import UwbRanging.Decimal.Reading

/-!
Parsers for the fields of a telemetry line. A parser takes what it reads from the front of the text. If it does
not find it, it says what it looked for and where, and another parser may be tried in its place; only an
exponent without digits ends the attempt for all of them.
-/

namespace UwbRanging.Telemetry

/-- What a parser looked for. -/
inductive Expected where
  | digit
  | char
  | float
  | eof
  | oneOf
  | space
  | takeWhile1
  /-- Fields whose values fit together. -/
  | mapRes
  | tag
  deriving DecidableEq, Repr

def Expected.name : Expected → String
  | digit => "Digit"
  | char => "Char"
  | float => "Float"
  | eof => "Eof"
  | oneOf => "OneOf"
  | space => "Space"
  | takeWhile1 => "TakeWhile1"
  | mapRes => "MapRes"
  | tag => "Tag"

/-- What a parser looked for in vain, and the text it looked at. -/
structure Fault where
  expected : Expected
  text : List Char
  deriving DecidableEq, Repr

inductive Outcome (α : Type) where
  | found (value : α) (rest : List Char)
  /-- Another parser may be tried. -/
  | missed (fault : Fault)
  /-- No other parser is tried. -/
  | aborted (fault : Fault)
  deriving Repr

def Parser (α : Type) : Type :=
  List Char → Outcome α

namespace Parser

variable {α β : Type}

instance : Monad Parser where
  pure a := fun s => .found a s
  bind p f := fun s =>
    match p s with
    | .found a rest => f a rest
    | .missed fault => .missed fault
    | .aborted fault => .aborted fault

/-- The second parser is tried where the first one misses. -/
protected def orElse (p : Parser α) (q : Unit → Parser α) : Parser α := fun s =>
  match p s with
  | .missed _ => q () s
  | outcome => outcome

instance : OrElse (Parser α) := ⟨Parser.orElse⟩

/-- The value of a parser, or nothing where it misses. -/
def optional (p : Parser α) : Parser (Option α) := fun s =>
  match p s with
  | .found a rest => .found (some a) rest
  | .missed _ => .found none s
  | .aborted fault => .aborted fault

/-- The values of a parser, again and again until it misses. It takes a character each time, so the length of
the text bounds the number of times. -/
def manyWithin (p : Parser α) : Nat → Parser (List α)
  | 0 => pure []
  | fuel + 1 => fun s =>
    match p s with
    | .found a rest => (do return a :: (← manyWithin p fuel) : Parser (List α)) rest
    | .missed _ => .found [] s
    | .aborted fault => .aborted fault

def many1 (p : Parser α) : Parser (List α) := do
  let a ← p
  return a :: (← fun s => manyWithin p s.length s)

def times (p : Parser α) : Nat → Parser (List α)
  | 0 => return []
  | n + 1 => do
    let a ← p
    return a :: (← p.times n)

/-- The value of a parser, if `f` accepts it; else the fault is that of the whole text. -/
def filterMap (p : Parser α) (f : α → Option β) : Parser β := fun s =>
  match p s with
  | .found a rest =>
    match f a with
    | some b => .found b rest
    | none => .missed ⟨.mapRes, s⟩
  | .missed fault => .missed fault
  | .aborted fault => .aborted fault

/-- A parser after which no text may be left. -/
def complete (p : Parser α) : Parser α := do
  let a ← p
  fun s => if s.isEmpty then .found a s else .missed ⟨.eof, s⟩

end Parser

/-- Space and tab are the blanks within a line. -/
def isLineBlank (c : Char) : Bool :=
  c = ' ' || c = '\t'

def blanks : Parser Unit := fun s =>
  .found () (s.dropWhile isLineBlank)

def someBlanks : Parser Unit := fun s =>
  match s with
  | c :: _ => if isLineBlank c then blanks s else .missed ⟨.space, s⟩
  | [] => .missed ⟨.space, s⟩

/-- One given character. -/
def character (c : Char) : Parser Unit := fun s =>
  match s with
  | d :: rest => if d = c then .found () rest else .missed ⟨.char, s⟩
  | [] => .missed ⟨.char, s⟩

/-- One of some given characters. -/
def oneOf (cs : List Char) : Parser Char := fun s =>
  match s with
  | d :: rest => if d ∈ cs then .found d rest else .missed ⟨.oneOf, s⟩
  | [] => .missed ⟨.oneOf, s⟩

/-- At least one character that satisfies `p`. -/
def takeWhile1 (p : Char → Bool) : Parser (List Char) := fun s =>
  if (s.takeWhile p).isEmpty then .missed ⟨.takeWhile1, s⟩
  else .found (s.takeWhile p) (s.dropWhile p)

/-- Everything that is left. -/
def restOfLine : Parser (List Char) := fun s =>
  .found s []

/-- A decimal count that fits a 32-bit word. -/
def word : Parser UInt32 := fun s =>
  let digits := s.takeWhile Char.isDigit
  let n := Decimal.digitsValue 0 digits
  if digits.isEmpty || UInt32.size ≤ n then .missed ⟨.digit, s⟩
  else .found (UInt32.ofNat n) (s.dropWhile Char.isDigit)

/-- A decimal integer with an optional sign that fits 64 bits. -/
def integer : Parser Int := fun s =>
  let (negative, t) := Decimal.splitSign s
  let digits := t.takeWhile Char.isDigit
  let n : Int := Decimal.digitsValue 0 digits
  let n := if negative then -n else n
  if digits.isEmpty || n < Int64.minValue.toInt || Int64.maxValue.toInt < n then .missed ⟨.digit, s⟩
  else .found n (t.dropWhile Char.isDigit)

/-- The digits of a decimal number without sign, before and after the point, and the text after them. -/
def splitMagnitude (s : List Char) : List Char × List Char × List Char :=
  let (whole, t) := Decimal.splitDigits s
  let (fraction, rest) := Decimal.splitFraction t
  (whole, fraction, rest)

/-- The words that are numbers, in letters of either case. -/
def numberWord : Parser Float := fun s =>
  let w := (s.take 3).map Char.toLower
  if w = ['n', 'a', 'n'] then .found Decimal.nan (s.drop 3)
  else if w = ['i', 'n', 'f'] then .found (Decimal.infinite false) (s.drop 3)
  else .missed ⟨.float, s⟩

/-- A decimal number, or the word for not a number or for infinity. -/
def number : Parser Float := fun s =>
  let (negative, t) := Decimal.splitSign s
  let (whole, fraction, rest) := splitMagnitude t
  if whole.isEmpty && fraction.isEmpty then numberWord s
  else match rest with
    | c :: afterMark =>
      if c = 'e' ∨ c = 'E' then
        let (exponentNegative, u) := Decimal.splitSign afterMark
        let (exponent, rest) := Decimal.splitDigits u
        if exponent.isEmpty then .aborted ⟨.float, s⟩
        else .found (Decimal.Written.toFloat ⟨negative, whole, fraction, exponentNegative, exponent⟩) rest
      else .found (Decimal.Written.toFloat ⟨negative, whole, fraction, false, []⟩) rest
    | [] => .found (Decimal.Written.toFloat ⟨negative, whole, fraction, false, []⟩) rest

end UwbRanging.Telemetry
