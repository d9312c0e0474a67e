import UwbRanging.Decimal.Reading
import UwbRanging.SavedText.Reader

/-!
Reading the plain values of saved text: counts, numbers, truth values, characters and strings.
-/

namespace UwbRanging.SavedText

/-- The value of a hexadecimal digit. -/
def hexDigit? (c : Char) : Option Nat :=
  if c.isDigit then some (c.toNat - '0'.toNat)
  else if 'a' ≤ c ∧ c ≤ 'f' then some (c.toNat - 'a'.toNat + 10)
  else if 'A' ≤ c ∧ c ≤ 'F' then some (c.toNat - 'A'.toNat + 10)
  else none

/-- Digits in every base are taken from this class, so that a digit too large for its base is an error and
not the end of the count. -/
def isCountChar (c : Char) : Bool :=
  (hexDigit? c).isSome || c = '_'

/-- The base that a count announces, and the text after the announcement. -/
def splitBase : List Char → Nat × List Char
  | '0' :: 'x' :: s => (16, s)
  | '0' :: 'b' :: s => (2, s)
  | '0' :: 'o' :: s => (8, s)
  | s => (10, s)

/-- The value of digits to a base; low lines between them count for nothing. -/
def countValue? (base : Nat) : Nat → List Char → Option Nat
  | n, [] => some n
  | n, c :: s =>
    if c = '_' then countValue? base n s
    else match hexDigit? c with
      | some d => if d < base then countValue? base (n * base + d) s else none
      | none => none

/-- A count below `bound`, without sign. -/
def count (bound : Nat) : Reader Nat := fun _ text =>
  let (base, s) := splitBase text
  let digits := s.takeWhile isCountChar
  match digits with
  | [] => none
  | c :: _ =>
    if c = '_' then none
    else match countValue? base 0 digits with
      | some n => if n < bound then some (n, s.dropWhile isCountChar) else none
      | none => none

def isNumberChar (c : Char) : Bool :=
  c.isDigit || c = 'e' || c = 'E' || c = '.' || c = '+' || c = '-' || c = '_'

/-- The words for what has no digits. -/
def specialNumbers : List (String × Float) :=
  [("inf", Decimal.infinite false), ("+inf", Decimal.infinite false), ("-inf", Decimal.infinite true),
    ("NaN", Decimal.nan), ("+NaN", Decimal.nan), ("-NaN", Decimal.nan)]

/-- The first of the words that comes next. -/
def specialNumber? : List (String × Float) → Reader (Option Float)
  | [] => return none
  | (word, x) :: rest => do
    if ← takeIdentifier? word then return some x else specialNumber? rest

def number : Reader Float := do
  match ← specialNumber? specialNumbers with
  | some x => return x
  | none => fun _ text =>
    (Decimal.Written.ofChars? (text.takeWhile isNumberChar)).map fun w =>
      (w.toFloat, text.dropWhile isNumberChar)

def truthValue : Reader Bool := do
  if ← take? "true" then return true
  else
    expect "false"
    return false

/-- The character with a code point, if there is one. -/
def charOf? (n : Nat) : Option Char :=
  if n.isValidChar then some (Char.ofNat n) else none

/-- The value of hexadecimal digits. -/
def hexValue? : Nat → List Char → Option Nat
  | n, [] => some n
  | n, c :: s => (hexDigit? c).bind fun d => hexValue? (16 * n + d) s

/-- The character that an escape stands for, after its backslash, and the text after it. -/
def splitEscape? : List Char → Option (Char × List Char)
  | '\x27' :: s => some ('\x27', s)
  | '"' :: s => some ('"', s)
  | '\\' :: s => some ('\\', s)
  | 'n' :: s => some ('\n', s)
  | 'r' :: s => some ('\r', s)
  | 't' :: s => some ('\t', s)
  | '0' :: s => some ('\x00', s)
  | 'x' :: a :: b :: s => do return (← charOf? (← hexValue? 0 [a, b]), s)
  | 'u' :: '\x7b' :: s =>
    let digits := s.takeWhile (· ≠ '\x7d')
    if digits.isEmpty || 6 < digits.length then none
    else match s.dropWhile (· ≠ '\x7d') with
      | _ :: s => do return (← charOf? (← hexValue? 0 digits), s)
      | [] => none
  | _ => none

theorem splitEscape?_length {s rest : List Char} {c : Char} (h : splitEscape? s = some (c, rest)) :
    rest.length < s.length := by
  unfold splitEscape? at h
  split at h
  case h_9 s =>
    have hs := (List.dropWhile_suffix (l := s) (· ≠ '\x7d')).length_le
    dsimp only at h
    split at h
    · cases h
    · split at h
      · rename_i d t ht
        obtain ⟨n, _, h⟩ := Option.bind_eq_some_iff.1 h
        obtain ⟨c', _, h⟩ := Option.bind_eq_some_iff.1 h
        cases h
        simp only [ht, List.length_cons] at hs ⊢
        omega
      · cases h
  case h_8 =>
    obtain ⟨n, _, h⟩ := Option.bind_eq_some_iff.1 h
    obtain ⟨c', _, h⟩ := Option.bind_eq_some_iff.1 h
    cases h
    simp only [List.length_cons]
    omega
  all_goals first | (cases h; simp) | cases h

/-- The characters up to the closing quotation mark, escapes resolved, and the text after the mark. -/
def splitQuoted? : List Char → Option (List Char × List Char)
  | [] => none
  | '"' :: s => some ([], s)
  | '\\' :: s =>
    match _h : splitEscape? s with
    | none => none
    | some (c, rest) => (splitQuoted? rest).map fun (cs, rest) => (c :: cs, rest)
  | c :: s => (splitQuoted? s).map fun (cs, rest) => (c :: cs, rest)
termination_by s => s.length
decreasing_by
  · have := splitEscape?_length _h
    simp only [List.length_cons]
    omega
  · simp

/-- The characters up to a quotation mark with `marks` after it, and the text after those. -/
def splitRaw? (marks : List Char) : List Char → Option (List Char × List Char)
  | [] => none
  | c :: s =>
    match (if c = '"' then afterWord? marks s else none) with
    | some rest => some ([], rest)
    | none => (splitRaw? marks s).map fun (cs, rest) => (c :: cs, rest)

/-- A string in quotation marks, with escapes, or raw after an `r`, between equal rows of `#`. -/
def splitString? : List Char → Option (List Char × List Char)
  | '"' :: s => splitQuoted? s
  | 'r' :: s =>
    match s.dropWhile (· = '#') with
    | '"' :: t => splitRaw? (s.takeWhile (· = '#')) t
    | _ => none
  | _ => none

def string : Reader String := fun _ text =>
  (splitString? text).map fun (cs, rest) => (String.ofList cs, rest)

/-- One character between apostrophes. -/
def splitCharacter? : List Char → Option (Char × List Char)
  | '\x27' :: '\\' :: s =>
    match splitEscape? s with
    | some (c, '\x27' :: s) => some (c, s)
    | _ => none
  | '\x27' :: c :: '\x27' :: s => if c = '\x27' then none else some (c, s)
  | _ => none

end UwbRanging.SavedText
