import UwbRanging.Collection.Collector
import UwbRanging.Log

/-!
What is logged about the lines of a collection.
-/

namespace UwbRanging

/-- Something worth telling about a line. -/
inductive Remark where
  | addressChanged (node : NodeId)
  | announced (node : NodeId)
  | carrierOffset (node other : NodeId) (offset : Int)
  /-- The measurement came before the address of its node. -/
  | unaddressed
  | noEstimate (node other : NodeId) (error : RangingError) (exchange : Exchange)
  | finished
  | notUnderstood (error : TelemetryError)
  deriving DecidableEq

namespace Remark

def level : Remark → LogLevel
  | addressChanged _ => .warn
  | announced _ => .info
  | carrierOffset _ _ _ => .debug
  | unaddressed => .debug
  | noEstimate _ _ _ _ => .warn
  | finished => .info
  | notUnderstood (.unrecognized _) => .debug
  | notUnderstood (.malformed _ _) => .warn

def arrow (node other : NodeId) : String :=
  toString node.toNat ++ "->" ++ toString other.toNat

/-- The text about a line on a stream. -/
def message (stream : String) (r : Remark) : String :=
  let onStream (s : String) := "[" ++ stream ++ "] " ++ s
  match r with
  | addressChanged node => onStream ("node address changed to " ++ toString node.toNat)
  | announced node => onStream ("is node " ++ toString node.toNat)
  | carrierOffset node other offset =>
    onStream (arrow node other ++ " carrier offset " ++ toString offset)
  | unaddressed => onStream "measurement before address announcement, dropped"
  | noEstimate node other error exchange =>
    arrow node other ++ ": " ++ error.message ++ " (" ++ exchange.render ++ ")"
  | finished => onStream "finished"
  | notUnderstood error => onStream error.message

end Remark

namespace Collector

variable {α : Type} [Arith α]

/-- What there is to tell about a measurement, depending on the address of its stream. -/
def remarksUnderAddress (c : Collector α) (stream : String) (f : NodeId → List Remark) : List Remark :=
  match c.address? stream with
  | some node => f node
  | none => [.unaddressed]

/-- What there is to tell about a line that is about to be filed. -/
def remarksOnRecord (c : Collector α) (stream : String) : TelemetryLine α → List Remark
  | .address _ low =>
    if (c.address? stream).any (· ≠ low) then [.addressChanged low, .announced low] else [.announced low]
  | .twoWayRange other _ _ offset =>
    c.remarksUnderAddress stream fun node => offset.toList.map (.carrierOffset node other)
  | .tdoa _ _ _ _ => c.remarksUnderAddress stream fun _ => []
  | .rawExchange neighbor exchange =>
    c.remarksUnderAddress stream fun node =>
      match exchange.timeOfFlight (α := α) c.settings.estimator with
      | .ok _ => []
      | .error error => [.noEstimate node neighbor error exchange]
  | .finished => [.finished]
  | .timeslot _ | .associated _ | .neighborList _ | .configItem _ _ => []

/-- What there is to tell about a line that is about to be consumed. -/
def remarks (c : Collector Float) (line : StreamLine) : List Remark :=
  match Telemetry.decode line.text with
  | .ok decoded => c.remarksOnRecord line.stream decoded
  | .error error => [.notUnderstood error]

/-- The log of consuming lines. -/
def logOf (c : Collector Float) : List StreamLine → Log
  | [] => []
  | line :: lines =>
    (c.remarks line).map (fun r => ⟨r.level, .collector, r.message line.stream⟩)
      ++ (c.consume line).logOf lines

/-- The entry at the end of a collection. -/
def closingEntry (c : Collector α) : LogEntry :=
  ⟨.info, .collector, "Collected " ++ toString c.recorded ++ " lines (" ++ toString c.skipped
    ++ " skipped) from " ++ toString c.run.streams.size ++ " streams"⟩

end Collector

end UwbRanging
