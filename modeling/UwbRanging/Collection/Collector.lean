import UwbRanging.Collection.StreamLine
import UwbRanging.Config
import UwbRanging.Run
import UwbRanging.Statistics.Moments
import UwbRanging.Telemetry.Decode

/-!
The collection of a run. Each line is filed under the node whose stream it came on: measurements into the sets
of the run, all else into what is known of the stream. A line that cannot be filed is skipped.
-/

namespace UwbRanging

structure Collector (α : Type) where
  settings : CollectorSettings α
  run : CollectedRun α
  /-- The streams whose node has come to the end of its experiment. -/
  finished : SortedMap String Unit
  /-- The number of lines filed. -/
  recorded : Nat
  /-- The number of lines skipped. -/
  skipped : Nat

namespace Collector

variable {α : Type} [Arith α]

def new (settings : CollectorSettings α) : Collector α where
  settings := settings
  run := ⟨.empty settings.rangeUnit, .empty settings.rangeUnit, .empty .ticks, .empty⟩
  finished := .empty
  recorded := 0
  skipped := 0

/-- The address that the node of a stream announced last. -/
def address? (c : Collector α) (stream : String) : Option NodeId :=
  (c.run.streams.get? stream).bind StreamInfo.address

def skip (c : Collector α) : Collector α :=
  { c with skipped := c.skipped + 1 }

/-- Files a line as a change of the run. -/
def file (c : Collector α) (f : CollectedRun α → CollectedRun α) : Collector α :=
  { c with run := f c.run, recorded := c.recorded + 1 }

/-- Files a line as a change of what is known of its stream. -/
def fileInfo (c : Collector α) (stream : String) (f : StreamInfo → StreamInfo) : Collector α :=
  c.file fun run => { run with streams := run.streams.upsert stream fun info => f (info.getD .empty) }

/-- Files a line under the address of its stream; without an address the line is skipped. -/
def fileUnderAddress (c : Collector α) (stream : String) (f : NodeId → Collector α) : Collector α :=
  match c.address? stream with
  | some node => f node
  | none => c.skip

/-- Files a line that has been understood. The estimate from the readings of an exchange has no parameter of
its own and gets zero; an exchange without an estimate is skipped. -/
def record (c : Collector α) (stream : String) : TelemetryLine α → Collector α
  | .address high low =>
    c.fileInfo stream fun info => { info with address := some low, linkAddress := some (high, low) }
  | .twoWayRange other parameter range _ =>
    c.fileUnderAddress stream fun node => c.file fun run =>
      { run with twr := run.twr.push (node, other) ⟨parameter, range / c.settings.rangeScale⟩ }
  | .tdoa anchor1 anchor2 parameter range =>
    c.fileUnderAddress stream fun node => c.file fun run =>
      { run with
        tdoa := run.tdoa.push (node, anchor1, anchor2) ⟨parameter, range / c.settings.rangeScale⟩ }
  | .rawExchange neighbor exchange =>
    c.fileUnderAddress stream fun node =>
      match exchange.timeOfFlight c.settings.estimator with
      | .ok tof => c.file fun run =>
        { run with exchanges := run.exchanges.push (node, neighbor) ⟨0, tof⟩ }
      | .error _ => c.skip
  | .timeslot slot => c.fileInfo stream fun info => { info with timeslot := some slot }
  | .associated joined => c.fileInfo stream fun info => { info with associated := some joined }
  | .neighborList neighbors => c.fileInfo stream fun info => { info with neighbors }
  | .configItem name value =>
    c.fileInfo stream fun info => { info with config := info.config.insert name value }
  | .finished => { c.file id with finished := c.finished.insert stream () }

/-- Decodes a line and files it. A line that cannot be decoded is skipped. -/
def consume (c : Collector Float) (line : StreamLine) : Collector Float :=
  match Telemetry.decode line.text with
  | .ok decoded => c.record line.stream decoded
  | .error _ => c.skip

def consumeAll (c : Collector Float) (lines : List StreamLine) : Collector Float :=
  lines.foldl consume c

def isFinished (c : Collector α) (stream : String) : Bool :=
  c.finished.contains stream

/-- Whether the node of every stream has come to its end, if anything is known of any stream. -/
def allFinished (c : Collector α) : Bool :=
  !c.run.streams.isEmpty && c.run.streams.keys.all c.isFinished

/-- For each pair the average of its latest `window` ranges. -/
def latestAverages (c : Collector α) (window : Nat) : SortedMap RangeKey α :=
  c.run.twr.series.filterMap fun _ series =>
    (Statistics.movingAverage (series.map Measurement.distance) window).getLast?

end Collector

/-- The number of lines that can be decoded. -/
def countDecoded (lines : List StreamLine) : Nat :=
  lines.countP fun line => (Telemetry.decode line.text).isOk

end UwbRanging
