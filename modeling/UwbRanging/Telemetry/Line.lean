import UwbRanging.Exchange
import UwbRanging.Measurement
import UwbRanging.Telemetry.Parser
import UwbRanging.Text.Escape

/-!
What a node prints on its console, line by line.
-/

namespace UwbRanging

/-- A line that has been understood. -/
inductive TelemetryLine (α : Type) where
  /-- The link address of the node. The low part is its short address. -/
  | address (high low : UInt32)
  /-- A range that the node computed, and the carrier offset it saw. -/
  | twoWayRange (other : NodeId) (parameter : UInt32) (range : α) (freqOffset : Option Int)
  /-- A distance difference that the node computed as a listener. -/
  | tdoa (anchor1 anchor2 : NodeId) (parameter : UInt32) (range : α)
  /-- The slot the node ranges in. -/
  | timeslot (slot : UInt32)
  /-- Whether the node has joined the network. -/
  | associated (joined : Bool)
  /-- The nodes that the node hears. -/
  | neighborList (neighbors : List NodeId)
  /-- The clock readings of an exchange with a replier. -/
  | rawExchange (neighbor : NodeId) (exchange : Exchange)
  /-- A setting of the firmware. -/
  | configItem (name value : String)
  /-- The node has come to the end of its experiment. -/
  | finished

/-- Why a line was not understood. -/
inductive TelemetryError where
  /-- It does not begin like any line. -/
  | unrecognized (line : String)
  /-- It begins like a line of some kind but does not go on like one. -/
  | malformed (line : String) (fault : Telemetry.Fault)
  deriving DecidableEq

namespace TelemetryError

def reason (fault : Telemetry.Fault) : String :=
  fault.expected.name ++ " at " ++ Text.quote (String.ofList fault.text)

def message : TelemetryError → String
  | unrecognized line => "unrecognized line: " ++ Text.quote line
  | malformed line fault => "malformed line " ++ Text.quote line ++ ": " ++ reason fault

end TelemetryError

/-- An exchange as a node dumps it: each reading as its high and its low 32 bits. -/
def Exchange.dumpLine (neighbor : NodeId) (e : Exchange) : String :=
  "tstx1, " ++ toString neighbor.toNat ++ ", "
    ++ String.intercalate ", " (e.toRaw.map fun t =>
      toString (t / UInt32.size) ++ ":" ++ toString (t % UInt32.size))

end UwbRanging
