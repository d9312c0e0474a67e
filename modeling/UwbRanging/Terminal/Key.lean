/-!
The keys in what a terminal sends. A key is one character, or a sequence of them that an escape character
begins. Shift, control and alt are not looked at.
-/

namespace UwbRanging.Terminal

inductive Key where
  | up
  | down
  | enter
  | char (c : Char)
  /-- Any key that nothing depends on. -/
  | other
  deriving DecidableEq, Repr

/-- The key of a single character. Below the space stand the letters with control. -/
def Key.ofChar (c : Char) : Key :=
  let n := c.toNat
  if c = '\r' then enter
  else if c = '\t' || c = '\x7f' then other
  else if n = 0 then char ' '
  else if n ≤ 26 then char (Char.ofNat (n - 1 + 'a'.toNat))
  else if 28 ≤ n && n ≤ 31 then char (Char.ofNat (n - 28 + '4'.toNat))
  else char c

/-- The key that a letter at the end of a sequence stands for. -/
def Key.ofLetter? : Char → Option Key
  | 'A' => some up
  | 'B' => some down
  | c => if c ∈ ['C', 'D', 'F', 'H', 'P', 'Q', 'R', 'S'] then some other else none

/-- The key with a number, a code point or one beyond them for the keys of the keypad and such. -/
def Key.ofCode? (n : Nat) : Option Key :=
  if n = 57419 then some up
  else if n = 57420 then some down
  else if n = 13 || n = 57414 then some enter
  else if n = 27 || n = 9 || n = 127 || (57344 ≤ n && n < 63744) then some other
  else if n.isValidChar then some (char (Char.ofNat n))
  else none

/-- Whether the second parameter of a sequence, if it has one, says that the key was pressed, and not that it
repeats or was released. -/
def saysPressed (parameters : List String) : Bool :=
  match parameters.drop 1 with
  | [] => true
  | second :: _ => !((second.splitOn ":").drop 1).head?.any fun kind => kind = "2" || kind = "3"

/-- The key of a sequence with numbers, which end at a letter or a tilde. -/
def numberedKey? (numbers : List Char) (final : Char) : Option Key :=
  let parameters := (String.ofList numbers).splitOn ";"
  let first := parameters.head?.bind fun p => (p.splitOn ":").head?.bind String.toNat?
  if !saysPressed parameters then none
  else match final with
    | '~' => first.bind fun n => if 0 < n && n ≤ 34 then some .other else none
    | 'u' => first.bind Key.ofCode?
    | 'M' => none
    | c => if c = 'R' || numbers.getLast? = some ';' then none else Key.ofLetter? c

/-- The characters that end a sequence with numbers. -/
def isFinal (c : Char) : Bool :=
  64 ≤ c.toNat && c.toNat ≤ 126

/-- The text after the first character of some, if there is one. -/
def afterFirst? (ends : Char → Bool) (s : List Char) : Option (List Char) :=
  match s.dropWhile fun c => !ends c with
  | [] => none
  | _ :: s => some s

/-- Reads on after an escape character and an opening bracket: a key or nothing, such as a change of focus or
a movement of the mouse, and the text after it. There is no answer yet if the sequence is not complete. -/
def readSequence : List Char → Option (Option Key × List Char)
  | [] => none
  | '[' :: [] => none
  | '[' :: c :: s => some (if 'A' ≤ c ∧ c ≤ 'E' then some .other else none, s)
  | '<' :: s => (afterFirst? (fun c => c = 'm' || c = 'M') s).map (none, ·)
  | '?' :: s => (afterFirst? (fun c => c = 'u' || c = 'c') s).map (none, ·)
  | 'M' :: s => if s.length < 3 then none else some (none, s.drop 3)
  | 'Z' :: s => some (some .other, s)
  | 'R' :: s => some (none, s)
  | c :: s =>
    if c.isDigit then
      match s.dropWhile fun d => !isFinal d with
      | [] => none
      | final :: rest => some (numberedKey? (c :: s.takeWhile fun d => !isFinal d) final, rest)
    else some (Key.ofLetter? c, s)

/-- Reads one key or something that is none. -/
def readKey : List Char → Option (Option Key × List Char)
  | [] => none
  | '\x1b' :: [] => some (some .other, [])
  | '\x1b' :: '[' :: s => readSequence s
  | '\x1b' :: 'O' :: [] => none
  | '\x1b' :: 'O' :: c :: s => some (Key.ofLetter? c, s)
  | '\x1b' :: '\x1b' :: s => some (some .other, s)
  | '\x1b' :: c :: s => some (some (Key.ofChar c), s)
  | c :: s => some (some (Key.ofChar c), s)

/-- The keys in a text, in at most `fuel` steps. -/
def keysIn : Nat → List Char → List Key
  | 0, _ => []
  | fuel + 1, s =>
    match readKey s with
    | none => []
    | some (key, rest) => key.toList ++ keysIn fuel rest

/-- The keys that were typed. -/
def typedKeys (s : String) : List Key :=
  keysIn s.length s.toList

end UwbRanging.Terminal
