/-!
Reading saved text: blanks and comments, punctuation, identifiers and lists of items. A reader takes what it
reads from the front of the text and leaves the rest; a text that does not have the expected form is refused
as a whole.
-/

namespace UwbRanging.SavedText

structure Context where
  /-- A present optional value may stand without `Some(...)`. -/
  implicitSome : Bool
  /-- How many more values may be nested in one another. -/
  depth : Nat
  /-- More than any list has items: the length of the text is enough. -/
  fuel : Nat

abbrev Reader (α : Type) :=
  ReaderT Context (StateT (List Char) Option) α

variable {α : Type}

/-- How deep values may be nested. -/
def depthLimit : Nat :=
  128

/-- Reads one level deeper. -/
def nested (r : Reader α) : Reader α := fun context text =>
  match context.depth with
  | 0 => none
  | depth + 1 => r { context with depth } text

/-- Where the blanks between two items stand: outside comments, in a comment that ends with its line, or in
so many comments in one another that each have an end of their own. -/
inductive Gap where
  | blank
  | line
  | block (level : Nat)

def isSpace (c : Char) : Bool :=
  c = ' ' || c = '\t' || c = '\r' || c = '\n'

/-- The text after the blanks and comments at its front. A comment that begins has to be one: a lone slash
and an open block are refused. -/
def skipGap : Gap → List Char → Option (List Char)
  | .blank, '/' :: '/' :: s => skipGap .line s
  | .blank, '/' :: '*' :: s => skipGap (.block 0) s
  | .blank, '/' :: _ => none
  | .blank, c :: s => if isSpace c then skipGap .blank s else some (c :: s)
  | .blank, [] => some []
  | .line, c :: s => if c = '\n' then skipGap .blank s else skipGap .line s
  | .line, [] => some []
  | .block n, '/' :: '*' :: s => skipGap (.block (n + 1)) s
  | .block 0, '*' :: '/' :: s => skipGap .blank s
  | .block (n + 1), '*' :: '/' :: s => skipGap (.block n) s
  | .block n, _ :: s => skipGap (.block n) s
  | .block _, [] => none

def gap : Reader Unit := fun _ text =>
  (skipGap .blank text).map ((), ·)

/-- The text after `word`, if it begins with it. -/
def afterWord? : List Char → List Char → Option (List Char)
  | [], s => some s
  | _ :: _, [] => none
  | w :: word, c :: s => if w = c then afterWord? word s else none

/-- Takes `word` if it comes next, and says whether it did. -/
def take? (word : String) : Reader Bool := fun _ text =>
  match afterWord? word.toList text with
  | some rest => some (true, rest)
  | none => some (false, text)

def expect (word : String) : Reader Unit := do
  guard (← take? word)

/-- Takes a comma and the blanks around it if it comes next, and says whether it did. -/
def comma : Reader Bool := do
  gap
  let found ← take? ","
  if found then gap
  return found

def isIdentifierFirst (c : Char) : Bool :=
  c.isAlpha || c = '_'

def isIdentifierChar (c : Char) : Bool :=
  c.isAlphanum || c = '_'

/-- Raw identifiers, which `r#` marks, may also hold points and signs. -/
def isRawIdentifierChar (c : Char) : Bool :=
  isIdentifierChar c || c = '.' || c = '+' || c = '-'

/-- Takes a plain identifier, after which no character of a raw one may follow. -/
def splitPlainIdentifier? (s : List Char) : Option (List Char × List Char) :=
  let name := s.takeWhile isIdentifierChar
  let rest := s.dropWhile isIdentifierChar
  match rest with
  | c :: _ => if isRawIdentifierChar c then none else some (name, rest)
  | [] => some (name, rest)

def splitIdentifier? : List Char → Option (List Char × List Char)
  | ['r'] => none
  | 'r' :: '"' :: _ => none
  | 'r' :: '#' :: s =>
    let name := s.takeWhile isRawIdentifierChar
    if name.isEmpty then none else some (name, s.dropWhile isRawIdentifierChar)
  | c :: s => if isIdentifierFirst c then splitPlainIdentifier? (c :: s) else none
  | [] => none

def identifier : Reader String := fun _ text =>
  (splitIdentifier? text).map fun (name, rest) => (String.ofList name, rest)

def beginsWithIdentifierChar : List Char → Bool
  | c :: _ => isIdentifierChar c
  | [] => false

/-- Takes `word` if it comes next and no longer identifier does, and says whether it did. -/
def takeIdentifier? (word : String) : Reader Bool := fun _ text =>
  match afterWord? word.toList text with
  | some rest => some (if beginsWithIdentifierChar rest then (false, text) else (true, rest))
  | none => some (false, text)

/-- The name that may stand before a record. -/
def recordName (name : String) : Reader Unit := fun context text =>
  if beginsWithIdentifierChar text then
    (do guard ((← identifier) = name) : Reader Unit) context text
  else some ((), text)

/-- Items up to `close`, with commas between them and perhaps one after the last. An item changes a state
and takes at least one character, so the length of the text bounds their number. -/
def foldItems {σ : Type} (close : Char) (item : σ → Reader σ) : Nat → Bool → σ → Reader σ
  | 0, _, _ => failure
  | fuel + 1, hadComma, state => do
    gap
    match (← get).head? with
    | none => failure
    | some c =>
      if c = close then return state
      else
        guard hadComma
        let state ← item state
        foldItems close item fuel (← comma) state

/-- Items between brackets. -/
def enclosed {σ : Type} (opening closing : Char) (item : σ → Reader σ) (start : σ) : Reader σ := do
  expect (String.singleton opening)
  let state ← foldItems closing item (← read).fuel true start
  let _ ← comma
  expect (String.singleton closing)
  return state

/-- Takes what `key` and `value` read on the two sides of a colon. -/
def colonPair {κ ν : Type} (key : Reader κ) (value : κ → Reader ν) : Reader ν := do
  let k ← nested key
  gap
  expect ":"
  gap
  nested (value k)

end UwbRanging.SavedText
