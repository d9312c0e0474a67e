import UwbRanging.SavedText.Scalar

/-!
Skipping the value of a field that a record does not have. The value may be anything that saved text can hold,
so it is read without knowing its type.
-/

namespace UwbRanging.SavedText

/-- The sign at the front of a number, as the bound on the magnitude of a count after it. -/
def countBound : List Char → Nat × List Char
  | '+' :: s => (UInt64.size / 2, s)
  | '-' :: s => (UInt64.size / 2 + 1, s)
  | s => (UInt64.size, s)

/-- A count, or where that fails or the characters of a number go on for longer, a number. -/
def skipNumber : Reader Unit := fun context text =>
  let (bound, body) := countBound text
  let asNumber := (number context text).map fun (_, rest) => ((), rest)
  if (body.takeWhile isCountChar).length < (body.takeWhile isNumberChar).length then asNumber
  else match count bound context body with
    | some (_, rest) => some ((), rest)
    | none => asNumber

/-- Whether the text after an opening parenthesis is a list of values and not of named fields. -/
def beginsTuple (text : List Char) : Option Bool :=
  match splitIdentifier? text with
  | none => some true
  | some (_, rest) =>
    match skipGap .blank rest with
    | some (c :: _) => some (c ≠ ':')
    | _ => none

/-- A value and what stands between a name and it. -/
def skipAfterColon (inner : Reader Unit) : Reader Unit := do
  gap
  expect ":"
  gap
  inner

/-- What may follow the name of a record or variant: values or fields in parentheses, or nothing. -/
def skipArguments (inner : Reader Unit) : Reader Unit := fun context text =>
  match text with
  | '(' :: s =>
    match (skipGap .blank s).bind beginsTuple with
    | none => none
    | some true => enclosed '(' ')' (fun _ => inner) () context text
    | some false =>
      enclosed '(' ')' (fun _ => do let _ ← identifier; skipAfterColon inner) () context text
  | _ => some ((), text)

def skipPresent (inner : Reader Unit) : Reader Unit := do
  expect "Some"
  gap
  if ← take? "(" then
    gap
    inner
    let _ ← comma
    expect ")"
  else
    guard (← read).implicitSome
    inner

/-- The value that the first of its characters announces. -/
def skipAnnounced (inner : Reader Unit) : Reader Unit := fun context text =>
  match text with
  | [] => none
  | '(' :: _ => skipArguments inner context text
  | '[' :: _ => enclosed '[' ']' (fun _ => inner) () context text
  | '\x7b' :: _ =>
    enclosed '\x7b' '\x7d' (fun _ => do inner; skipAfterColon inner) () context text
  | '\x27' :: _ => (splitCharacter? text).map fun (_, rest) => ((), rest)
  | c :: _ =>
    if c.isDigit ∨ c = '+' ∨ c = '-' ∨ c = '.' then skipNumber context text
    else (splitString? text).map fun (_, rest) => ((), rest)

/-- The words that are values. -/
def valueWords : List String :=
  ["true", "false", "None", "inf", "-inf", "NaN"]

def takeAny? : List String → Reader Bool
  | [] => return false
  | w :: ws => do if ← takeIdentifier? w then return true else takeAny? ws

/-- A value whose parts `inner` skips. -/
def skipShallow (inner : Reader Unit) : Reader Unit := fun context text =>
  (do
    if ← takeAny? valueWords then return
    if ← take? "()" then return
    match splitIdentifier? (← get) with
    | some (name, rest) =>
      if name = "Some".toList then skipPresent inner
      else
        set rest
        gap
        skipArguments inner
    | none => skipAnnounced inner : Reader Unit) context text

/-- A value in which values are nested at most so deep. -/
def skipWithin : Nat → Reader Unit
  | 0 => skipShallow failure
  | depth + 1 => skipShallow (skipWithin depth)

def skip : Reader Unit := fun context text =>
  skipWithin context.depth context text

end UwbRanging.SavedText
