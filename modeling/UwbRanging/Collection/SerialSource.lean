import UwbRanging.Collection.SourceError
import UwbRanging.Collection.StreamLine
import UwbRanging.Files.Folder

/-!
Lines from the consoles of nodes at serial ports. Each port is read by a reader of its own, which assembles
lines and appends them to one queue; whoever polls the source takes all that is in the queue.
-/

namespace UwbRanging

/-- What reads one port. -/
structure PortReader where
  /-- The path of the port, which is also the name of its stream. -/
  port : String
  assembler : LineAssembler
  /-- Whether the other side is still there. -/
  connected : Bool
  deriving DecidableEq

structure SerialSource where
  readers : List PortReader
  /-- Lines that nobody has taken yet, oldest first. -/
  queue : List StreamLine
  running : Bool
  deriving DecidableEq

namespace PortReader

def new (port : String) : PortReader :=
  ⟨port, .empty, true⟩

/-- Reads bytes, and gives back the lines that they complete. -/
def receive (r : PortReader) (bytes : List UInt8) : List StreamLine × PortReader :=
  let (lines, assembler) := r.assembler.push bytes
  (lines.map (StreamLine.mk r.port), { r with assembler })

end PortReader

namespace SerialSource

/-- Opens every port. The first that cannot be opened is named, and none is read then. -/
def openPorts (folder : Folder) (ports : List String) : Except SourceError SerialSource := do
  if ports.isEmpty then throw .noPorts
  let readers ← ports.mapM fun port =>
    match folder.openConsole port with
    | .ok _ => Except.ok (PortReader.new port)
    | .error fault => .error (.cannotOpen port fault)
  return ⟨readers, [], true⟩

/-- Bytes arrive at a port. Nobody reads them if the port is not open, if its other side has hung up, or if
the source has stopped. -/
def receive (s : SerialSource) (port : String) (bytes : List UInt8) : SerialSource :=
  if !s.running then s
  else
    let fed := s.readers.map fun r =>
      if r.port = port && r.connected then r.receive bytes else ([], r)
    { s with readers := fed.map Prod.snd, queue := s.queue ++ fed.flatMap Prod.fst }

/-- The other side of a port goes away. What it sent of a line is lost. -/
def hangUp (s : SerialSource) (port : String) : SerialSource :=
  { s with readers := s.readers.map fun r => if r.port = port then { r with connected := false } else r }

/-- Takes every line that is there. -/
def drain (s : SerialSource) : List StreamLine × SerialSource :=
  (s.queue, { s with queue := [] })

/-- Throws away every line that is there. -/
def clear (s : SerialSource) : SerialSource :=
  { s with queue := [] }

/-- Nothing is read any more. Lines that are there stay. -/
def stop (s : SerialSource) : SerialSource :=
  { s with running := false }

end SerialSource

end UwbRanging
