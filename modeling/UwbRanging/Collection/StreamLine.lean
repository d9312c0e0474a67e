/-!
Lines from the consoles of several nodes, and the assembly of lines from bytes as they arrive.
-/

namespace UwbRanging

/-- A line and the name of the stream it came on. -/
structure StreamLine where
  stream : String
  text : String
  deriving DecidableEq, Repr

/-- The bytes of a line whose end has not arrived yet. -/
structure LineAssembler where
  latestFirst : List UInt8
  deriving DecidableEq

namespace LineAssembler

def empty : LineAssembler :=
  ⟨[]⟩

/-- The bytes in the order of their arrival. -/
def pending (a : LineAssembler) : List UInt8 :=
  a.latestFirst.reverse

/-- The byte that ends a line. -/
def lineBreak : UInt8 :=
  10

/-- The text of a line without the carriage returns at its end. Bytes that are not UTF-8 are no text. -/
def lineOf? (bytes : List UInt8) : Option String :=
  (String.fromUTF8? ⟨bytes.toArray⟩).map fun s =>
    String.ofList ((s.toList.reverse.dropWhile (· = '\r')).reverse)

/-- Takes bytes, and gives back the lines that they complete. Lines that are no text are dropped. -/
def push (a : LineAssembler) : List UInt8 → List String × LineAssembler
  | [] => ([], a)
  | b :: bytes =>
    if b = lineBreak then
      let (lines, rest) := empty.push bytes
      ((lineOf? a.pending).toList ++ lines, rest)
    else push ⟨b :: a.latestFirst⟩ bytes

end LineAssembler

end UwbRanging
