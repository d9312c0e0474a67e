import UwbRanging.Decimal.Shortest
import UwbRanging.SavedText.Skip
import UwbRanging.SortedMap
import UwbRanging.Text.Escape

/-!
The written form of each kind of value in saved text, and how it is read. Items of lists, maps and records
stand on lines of their own, four spaces deeper than what holds them; tuples stay on one line. Reading is more
liberal than writing: blanks, comments, the order of fields, names before records and other spellings of
numbers and strings are all accepted.
-/

namespace UwbRanging.SavedText

/-- Values with a written form. -/
class Saved (α : Type) where
  /-- The text of a value that stands at a level of indentation. -/
  write : Nat → α → List Char
  read : Reader α

def indent (level : Nat) : List Char :=
  List.replicate (4 * level) ' '

/-- Items on lines of their own between brackets, or the brackets alone. -/
def writeLines (opening closing : Char) (level : Nat) (items : List (List Char)) : List Char :=
  if items.isEmpty then [opening, closing]
  else
    opening :: '\n' :: (items.flatMap fun item => indent (level + 1) ++ item ++ [',', '\n'])
      ++ indent level ++ [closing]

def writeCount (n : Nat) : List Char :=
  Nat.toDigits 10 n

instance : Saved UInt32 where
  write _ n := writeCount n.toNat
  read := do return UInt32.ofNat (← count UInt32.size)

/-- Counts of things in memory. -/
instance : Saved Nat where
  write _ n := writeCount n
  read := count UInt64.size

instance : Saved Float where
  write _ x := (Decimal.shortest x).toList
  read := number

instance : Saved Bool where
  write _ b := (if b then "true" else "false").toList
  read := truthValue

instance : Saved String where
  write _ s := (Text.quoteWith true s.toList).toList
  read := string

instance {α : Type} [Saved α] : Saved (Option α) where
  write level
    | none => "None".toList
    | some a => "Some(".toList ++ Saved.write level a ++ [')']
  read := do
    if ← take? "None" then return none
    if ← take? "Some" then
      gap
      if ← take? "(" then
        gap
        let a ← nested Saved.read
        let _ ← comma
        expect ")"
        return some a
    guard (← read).implicitSome
    some <$> nested Saved.read

instance {α : Type} [Saved α] : Saved (List α) where
  write level as := writeLines '[' ']' level (as.map (Saved.write (level + 1)))
  read := do
    let as ← enclosed '[' ']' (fun as => do return (← nested Saved.read) :: as) []
    return as.reverse

/-- Of two entries with one key the later wins. -/
instance {κ ν : Type} [KeyOrder κ] [Saved κ] [Saved ν] : Saved (SortedMap κ ν) where
  write level m := writeLines '\x7b' '\x7d' level
    (m.entries.map fun e => Saved.write (level + 1) e.1 ++ [':', ' '] ++ Saved.write (level + 1) e.2)
  read := enclosed '\x7b' '\x7d'
    (fun m => colonPair Saved.read fun k => do return m.insert k (← Saved.read)) .empty

/-- Values that a tuple can be made of, written one after the other. -/
class SavedTuple (α : Type) where
  writeItems : Nat → α → List Char
  /-- Items with commas between them. -/
  readItems : Reader α

instance {α : Type} [Saved α] : SavedTuple α where
  writeItems := Saved.write
  readItems := do
    gap
    nested Saved.read

instance {α β : Type} [Saved α] [SavedTuple β] : SavedTuple (α × β) where
  writeItems level p := Saved.write level p.1 ++ [',', ' '] ++ SavedTuple.writeItems level p.2
  readItems := do
    gap
    let a ← nested Saved.read
    guard (← comma)
    return (a, ← SavedTuple.readItems)

/-- One comma may stand after the last item, and one more after the list of items. -/
instance {α β : Type} [Saved α] [SavedTuple β] : Saved (α × β) where
  write level p := '(' :: SavedTuple.writeItems level p ++ [')']
  read := do
    expect "("
    let p ← SavedTuple.readItems
    let _ ← comma
    let _ ← comma
    expect ")"
    return p

/-- The codec of values that are written as one of several names. -/
@[reducible] def Saved.ofNames {α : Type} (name : α → String) (values : List α) : Saved α where
  write _ a := (name a).toList
  read := do
    gap
    let found ← nested identifier
    match values.find? (name · = found) with
    | some a => return a
    | none => failure

/-- The codec of values that are written as others, if `ofWritten?` accepts them. -/
@[reducible] def Saved.via {α β : Type} [Saved β] (toWritten : α → β) (ofWritten? : β → Option α) : Saved α where
  write level a := Saved.write level (toWritten a)
  read := do
    match ofWritten? (← Saved.read) with
    | some a => return a
    | none => failure

/-- The words at the top of a file that change how the rest is read. -/
def extensionNames : List String :=
  ["implicit_some", "unwrap_newtypes", "unwrap_variant_newtypes"]

/-- The names in an attribute, up to the one that no comma follows. -/
def extensions : Nat → Reader (List String)
  | 0 => failure
  | fuel + 1 => do
    let name ← identifier
    guard (name ∈ extensionNames)
    let more ← comma
    let another := beginsWithIdentifierChar (← get)
    guard (more || !another)
    if more && another then return name :: (← extensions fuel) else return [name]

/-- Punctuation with blanks after each part of it. -/
def expectAll : List String → Reader Unit
  | [] => return
  | w :: ws => do
    expect w
    gap
    expectAll ws

/-- The attributes at the top of a file, and the names in them. -/
def header : Nat → Reader (List String)
  | 0 => return []
  | fuel + 1 => do
    if (← get).head? = some '#' then
      expectAll ["#", "!", "[", "enable", "("]
      let names ← extensions (← read).fuel
      gap
      expectAll [")", "]"]
      return names ++ (← header fuel)
    else return []

/-- Reads a whole file: its attributes, one value, and nothing else but blanks and comments. -/
def parse {α : Type} [Saved α] (text : List Char) : Option α := do
  let fuel := text.length + 1
  let (names, rest) ← (do gap; header fuel : Reader (List String)) ⟨false, depthLimit, fuel⟩ text
  let context : Context := ⟨names.contains "implicit_some", depthLimit, fuel⟩
  let (a, rest) ← (do let a ← Saved.read; gap; return a : Reader α) context rest
  if rest.isEmpty then some a else none

/-- The text of a file that holds one value. -/
def render {α : Type} [Saved α] (a : α) : List Char :=
  Saved.write 0 a

end UwbRanging.SavedText
