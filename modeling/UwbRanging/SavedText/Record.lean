import UwbRanging.SavedText.Codec

/-!
Records in saved text: fields by name, in any order when they are read. A record is described by the list of
its fields; rows and slots of such a list are the values of all its fields and of those read so far.
-/

namespace UwbRanging.SavedText

structure Field where
  name : String
  type : Type
  codec : Saved type
  /-- The value of the field in a file that leaves it out, if a file may. -/
  default? : Option type

/-- A field that every file has to give. -/
def required (name : String) (α : Type) [codec : Saved α] : Field :=
  ⟨name, α, codec, none⟩

/-- A field whose value is absent from a file that leaves the field out. -/
def optional (name : String) (α : Type) [codec : Saved (Option α)] : Field :=
  ⟨name, Option α, codec, some none⟩

/-- A field with a value of its own in a file that leaves it out. -/
def defaulted (name : String) {α : Type} [codec : Saved α] (value : α) : Field :=
  ⟨name, α, codec, some value⟩

/-- A value for each field. -/
def Row : List Field → Type
  | [] => Unit
  | f :: fs => f.type × Row fs

/-- A value for some of the fields. -/
def Slots : List Field → Type
  | [] => Unit
  | f :: fs => Option f.type × Slots fs

def Slots.empty : (fs : List Field) → Slots fs
  | [] => ()
  | _ :: fs => (none, Slots.empty fs)

/-- Reads the value of the field with the name `name` into its slot. A slot is filled once; the value of a name
that no field has is skipped. -/
def Slots.readField (name : String) : (fs : List Field) → Slots fs → Reader (Slots fs)
  | [], slots => do
    skip
    return slots
  | f :: fs, (slot, slots) =>
    if name = f.name then do
      guard slot.isNone
      return (some (← f.codec.read), slots)
    else do
      return (slot, ← Slots.readField name fs slots)

/-- The row in the slots, with the defaults for what is missing. -/
def Slots.complete : (fs : List Field) → Slots fs → Option (Row fs)
  | [], _ => some ()
  | f :: fs, (slot, slots) => do
    return (← slot <|> f.default?, ← Slots.complete fs slots)

/-- Each field on a line of its own, its name before it. -/
def Row.write (level : Nat) : (fs : List Field) → Row fs → List (List Char)
  | [], _ => []
  | f :: fs, (a, row) =>
    (f.name.toList ++ [':', ' '] ++ f.codec.write (level + 1) a) :: Row.write level fs row

def readRow (fs : List Field) : Reader (Row fs) := do
  let slots ← enclosed '(' ')' (fun slots => colonPair identifier (Slots.readField · fs slots))
    (Slots.empty fs)
  match Slots.complete fs slots with
  | some row => return row
  | none => failure

/-- The codec of a record with the fields `fs`, before which a file may name its type. -/
@[reducible] def Saved.record {α : Type} (name : String) (fs : List Field) (toRow : α → Row fs)
    (ofRow : Row fs → α) : Saved α where
  write level a := writeLines '(' ')' level (Row.write level fs (toRow a))
  read := do
    recordName name
    gap
    return ofRow (← readRow fs)

end UwbRanging.SavedText
