import UwbRanging.Collection.Collector
import UwbRanging.Proofs.SortedMap

/-!
What one line does to a collector. A line is worth at most one measurement, in one of the three sets, or it is an
announcement about its node, or the end of the experiment; a line that is none of these only adds to the lines
skipped. `consume_eq` says all of it at once, and no other proof opens `consume`.
-/

namespace UwbRanging

attribute [ext] MeasurementSet StreamInfo CollectedRun Collector

variable {α : Type}

namespace MeasurementSet

variable {κ : Type} [KeyOrder κ]

/-- Appends measurements one after another, each to the series at its key. -/
def pushAll (s : MeasurementSet κ α) (entries : List (κ × Measurement α)) : MeasurementSet κ α :=
  entries.foldl (fun s e => s.push e.1 e.2) s

@[simp] theorem pushAll_singleton (s : MeasurementSet κ α) (k : κ) (m : Measurement α) :
    s.pushAll [(k, m)] = s.push k m :=
  rfl

theorem pushAll_append (s : MeasurementSet κ α) (es fs : List (κ × Measurement α)) :
    s.pushAll (es ++ fs) = (s.pushAll es).pushAll fs :=
  List.foldl_append

@[simp] theorem pushAll_unit (s : MeasurementSet κ α) (entries : List (κ × Measurement α)) :
    (s.pushAll entries).unit = s.unit := by
  induction entries generalizing s with
  | nil => rfl
  | cons e entries ih => exact ih (s.push e.1 e.2)

end MeasurementSet

namespace TelemetryLine

section Entries

variable [Arith α] (settings : CollectorSettings α) (node? : Option NodeId)

/-- The range that a line of a node reports, and the key of its series. -/
def filedRange? : TelemetryLine α → Option (RangeKey × Measurement α)
  | .twoWayRange other parameter range _ =>
    node?.map fun node => ((node, other), ⟨parameter, range / settings.rangeScale⟩)
  | _ => none

/-- The distance difference that a line of a node reports, and the key of its series. -/
def filedTdoa? : TelemetryLine α → Option (TdoaKey × Measurement α)
  | .tdoa anchor1 anchor2 parameter range =>
    node?.map fun node => ((node, anchor1, anchor2), ⟨parameter, range / settings.rangeScale⟩)
  | _ => none

/-- The estimate from the readings that a line of a node reports, if there is one, and the key of its series. -/
def filedExchange? : TelemetryLine α → Option (RangeKey × Measurement α)
  | .rawExchange neighbor exchange =>
    node?.bind fun node =>
      (exchange.timeOfFlight settings.estimator).toOption.map fun tof => ((node, neighbor), ⟨0, tof⟩)
  | _ => none

variable {settings node?} {line : TelemetryLine α}

/-- A measurement is filed under the address of the node that reports it. -/
theorem node_of_filedRange? {e : RangeKey × Measurement α} (h : line.filedRange? settings node? = some e) :
    node? = some e.1.1 := by
  cases line <;> simp only [filedRange?, reduceCtorEq] at h
  obtain ⟨node, rfl, rfl⟩ := Option.map_eq_some_iff.1 h
  rfl

theorem node_of_filedTdoa? {e : TdoaKey × Measurement α} (h : line.filedTdoa? settings node? = some e) :
    node? = some e.1.1 := by
  cases line <;> simp only [filedTdoa?, reduceCtorEq] at h
  obtain ⟨node, rfl, rfl⟩ := Option.map_eq_some_iff.1 h
  rfl

theorem node_of_filedExchange? {e : RangeKey × Measurement α}
    (h : line.filedExchange? settings node? = some e) : node? = some e.1.1 := by
  cases line <;> simp only [filedExchange?, reduceCtorEq] at h
  obtain ⟨node, rfl, h⟩ := Option.bind_eq_some_iff.1 h
  obtain ⟨tof, -, rfl⟩ := Option.map_eq_some_iff.1 h
  rfl

end Entries

/-- The short address that a line announces. -/
def shortAddress? : TelemetryLine α → Option NodeId
  | .address _ low => some low
  | _ => none

def linkAddress? : TelemetryLine α → Option (UInt32 × UInt32)
  | .address high low => some (high, low)
  | _ => none

def timeslot? : TelemetryLine α → Option UInt32
  | .timeslot slot => some slot
  | _ => none

def associated? : TelemetryLine α → Option Bool
  | .associated joined => some joined
  | _ => none

def neighborList? : TelemetryLine α → Option (List NodeId)
  | .neighborList neighbors => some neighbors
  | _ => none

/-- The value that a line announces for one setting of the firmware. -/
def configValue? (setting : String) : TelemetryLine α → Option String
  | .configItem name value => if name = setting then some value else none
  | _ => none

/-- Whether a line says something about its node that is kept with its stream. -/
def isAnnouncement : TelemetryLine α → Bool
  | .address _ _ | .timeslot _ | .associated _ | .neighborList _ | .configItem _ _ => true
  | _ => false

def isFinish : TelemetryLine α → Bool
  | .finished => true
  | _ => false

/-- Whether a line is about its node and not a measurement. -/
def isStatus (line : TelemetryLine α) : Bool :=
  line.isAnnouncement || line.isFinish

/-- Whether a line of a node is filed: what it says about the node always is, a measurement needs the address of
the node, and readings need an estimate besides. -/
def isFiled [Arith α] (settings : CollectorSettings α) (node? : Option NodeId) : TelemetryLine α → Bool
  | .twoWayRange _ _ _ _ | .tdoa _ _ _ _ => node?.isSome
  | .rawExchange _ exchange => node?.isSome && (exchange.timeOfFlight (α := α) settings.estimator).isOk
  | _ => true

end TelemetryLine

namespace StreamInfo

/-- What is known of a node after one more announcement of it. -/
def heed (info : StreamInfo) : TelemetryLine α → StreamInfo
  | .address high low => { info with address := some low, linkAddress := some (high, low) }
  | .timeslot slot => { info with timeslot := some slot }
  | .associated joined => { info with associated := some joined }
  | .neighborList neighbors => { info with neighbors }
  | .configItem name value => { info with config := info.config.insert name value }
  | _ => info

variable (info : StreamInfo) (line : TelemetryLine α)

theorem heed_address : (info.heed line).address = line.shortAddress?.or info.address := by
  cases line <;> rfl

theorem heed_linkAddress : (info.heed line).linkAddress = line.linkAddress?.or info.linkAddress := by
  cases line <;> rfl

theorem heed_timeslot : (info.heed line).timeslot = line.timeslot?.or info.timeslot := by
  cases line <;> rfl

theorem heed_associated : (info.heed line).associated = line.associated?.or info.associated := by
  cases line <;> rfl

theorem heed_neighbors : (info.heed line).neighbors = line.neighborList?.getD info.neighbors := by
  cases line <;> rfl

theorem heed_config (setting : String) :
    (info.heed line).config.get? setting = (line.configValue? setting).or (info.config.get? setting) := by
  cases line with
  | configItem name value =>
      simp only [heed, TelemetryLine.configValue?, SortedMap.get?_insert]
      by_cases h : name = setting
      · simp [h]
      · simp [h, Ne.symm h]
  | _ => rfl

end StreamInfo

/-- What a line says, if it can be decoded. -/
def StreamLine.decoded? (line : StreamLine) : Option (TelemetryLine Float) :=
  (Telemetry.decode line.text).toOption

namespace Collector

variable [Arith α]

/-- What is known of the streams after a line of one of them. -/
def streamsAfter (streams : SortedMap String StreamInfo) (stream : String) (line : TelemetryLine α) :
    SortedMap String StreamInfo :=
  if line.isAnnouncement then streams.upsert stream fun info => (info.getD .empty).heed line else streams

/-- The collector after a line of a stream that may or may not have been decoded, part by part. -/
def after (c : Collector α) (stream : String) (line? : Option (TelemetryLine α)) : Collector α where
  settings := c.settings
  run :=
    { twr := c.run.twr.pushAll (line?.bind (·.filedRange? c.settings (c.address? stream))).toList
      tdoa := c.run.tdoa.pushAll (line?.bind (·.filedTdoa? c.settings (c.address? stream))).toList
      exchanges := c.run.exchanges.pushAll (line?.bind (·.filedExchange? c.settings (c.address? stream))).toList
      streams := line?.elim c.run.streams (streamsAfter c.run.streams stream) }
  finished := if line?.any (·.isFinish) then c.finished.insert stream () else c.finished
  recorded := if line?.any (·.isFiled c.settings (c.address? stream)) then c.recorded + 1 else c.recorded
  skipped := if line?.any (·.isFiled c.settings (c.address? stream)) then c.skipped else c.skipped + 1

theorem after_none (c : Collector α) (stream : String) : c.after stream none = c.skip :=
  rfl

theorem record_eq (c : Collector α) (stream : String) (line : TelemetryLine α) :
    c.record stream line = c.after stream (some line) := by
  cases line with
  | twoWayRange other parameter range offset =>
      rcases hnode : c.address? stream with _ | node <;>
        simp [record, fileUnderAddress, after, MeasurementSet.pushAll, hnode, skip, file, TelemetryLine.filedRange?,
          TelemetryLine.filedTdoa?, TelemetryLine.filedExchange?, streamsAfter, TelemetryLine.isAnnouncement,
          TelemetryLine.isFinish, TelemetryLine.isFiled]
  | tdoa anchor1 anchor2 parameter range =>
      rcases hnode : c.address? stream with _ | node <;>
        simp [record, fileUnderAddress, after, MeasurementSet.pushAll, hnode, skip, file, TelemetryLine.filedRange?,
          TelemetryLine.filedTdoa?, TelemetryLine.filedExchange?, streamsAfter, TelemetryLine.isAnnouncement,
          TelemetryLine.isFinish, TelemetryLine.isFiled]
  | rawExchange neighbor exchange =>
      rcases hnode : c.address? stream with _ | node
      · simp [record, fileUnderAddress, after, MeasurementSet.pushAll, hnode, skip, TelemetryLine.filedRange?,
          TelemetryLine.filedTdoa?, TelemetryLine.filedExchange?, streamsAfter, TelemetryLine.isAnnouncement,
          TelemetryLine.isFinish, TelemetryLine.isFiled]
      · rcases htof : exchange.timeOfFlight (α := α) c.settings.estimator with error | tof <;>
          simp [record, fileUnderAddress, after, MeasurementSet.pushAll, hnode, htof, skip, file,
            TelemetryLine.filedRange?, TelemetryLine.filedTdoa?, TelemetryLine.filedExchange?, streamsAfter,
            TelemetryLine.isAnnouncement, TelemetryLine.isFinish, TelemetryLine.isFiled, Except.toOption, Except.isOk,
            Except.toBool]
  | _ => rfl

/-- One line, in full. -/
theorem consume_eq (c : Collector Float) (line : StreamLine) :
    c.consume line = c.after line.stream line.decoded? := by
  unfold consume StreamLine.decoded?
  cases Telemetry.decode line.text with
  | ok decoded => exact c.record_eq line.stream decoded
  | error fault => exact (c.after_none line.stream).symm

theorem consumeAll_append (c : Collector Float) (xs ys : List StreamLine) :
    c.consumeAll (xs ++ ys) = (c.consumeAll xs).consumeAll ys :=
  List.foldl_append

theorem consumeAll_append_singleton (c : Collector Float) (lines : List StreamLine) (line : StreamLine) :
    c.consumeAll (lines ++ [line]) = (c.consumeAll lines).after line.stream line.decoded? := by
  rw [consumeAll_append, ← consume_eq]
  rfl

end Collector

end UwbRanging
