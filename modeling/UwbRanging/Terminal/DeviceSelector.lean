import UwbRanging.Terminal.Key
import UwbRanging.Terminal.Screen
import UwbRanging.Terminal.TerminalError

/-!
A list of devices to select from. A cursor moves over the list and wraps around at its ends; the device under
it can be ticked.
-/

namespace UwbRanging.Terminal

structure DeviceSelector where
  devices : List String
  cursor : Nat
  /-- For each device whether it is ticked. -/
  marks : List Bool
  deriving DecidableEq, Repr

namespace DeviceSelector

/-- The cursor is on the first device, and nothing is ticked. -/
def new (devices : List String) : DeviceSelector :=
  ⟨devices, 0, devices.map fun _ => false⟩

/-- The ticked devices in the order of the list. -/
def ticked (s : DeviceSelector) : List String :=
  ((s.devices.zip s.marks).filter Prod.snd).map Prod.fst

/-- The ticked devices, or the one under the cursor if none is ticked. -/
def chosen (s : DeviceSelector) : List String :=
  if s.marks.any id then s.ticked else (s.devices[s.cursor]?).toList

/-- What a key does that does not end the selection. -/
def press (s : DeviceSelector) : Key → DeviceSelector
  | .down => { s with cursor := (s.cursor + 1) % s.devices.length }
  | .up => { s with cursor := (s.cursor + s.devices.length - 1) % s.devices.length }
  | .char ' ' => { s with marks := s.marks.modify s.cursor not }
  | _ => s

/-- The selection, if a key ends it. -/
def outcome? (s : DeviceSelector) : Key → Option (List String)
  | .enter => some s.chosen
  | .char 'q' => some []
  | _ => none

/-- The first device shown on a screen with `rows` rows for the list, after one that began at `offset`. The
list scrolls just enough to show the cursor. -/
def scroll (s : DeviceSelector) (rows offset : Nat) : Nat :=
  if rows = 0 then offset
  else if s.cursor < offset then s.cursor
  else if offset + rows ≤ s.cursor then s.cursor - rows + 1
  else offset

/-- The line of the device at an index. -/
def line (s : DeviceSelector) (index : Nat) (device : String) (mark : Bool) : String :=
  (if index = s.cursor then ">>" else "  ") ++ (if mark then "[x] " else "[ ] ") ++ device

def title : String :=
  " Testbed Nodes "

def instructions : String :=
  " Navigate <Up>/<Down> Toggle <Space> Start <Enter> Quit <Q> "

/-- What is shown if the list begins at the device `offset`. -/
def screen (s : DeviceSelector) (size : Size) (offset : Nat) : Screen :=
  let lines := (s.devices.zip s.marks).mapIdx fun i (device, mark) => s.line i device mark
  .box size title instructions (lines.drop offset)

/-- Handles keys one after the other until one of them ends the selection; without such a key there is no
end. The list is drawn before each key, and the answer comes with what was drawn last. -/
def run (size : Size) : DeviceSelector → Nat → List Key → Option (List String × Screen)
  | _, _, [] => none
  | s, offset, key :: keys =>
    let offset := s.scroll size.innerRows offset
    match s.outcome? key with
    | some selection => some (selection, s.screen size offset)
    | none => (s.press key).run size offset keys

end DeviceSelector

end UwbRanging.Terminal
