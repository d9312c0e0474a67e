import Mathlib.Data.List.Induction
import UwbRanging.Proofs.Collection.Filing
import UwbRanging.Proofs.Exchange.Degenerate

/-!
Every line is accounted for. A line that is consumed is either recorded or skipped; what is recorded is one
measurement or one remark of a node about itself; and what is skipped leaves nothing behind but its count.
-/

namespace UwbRanging

/-- A call to a collector: one line, or several at once. -/
inductive CollectorCall where
  | consume (line : StreamLine)
  | consumeAll (lines : List StreamLine)

namespace CollectorCall

/-- The lines that a call hands over. -/
def lines : CollectorCall → List StreamLine
  | .consume line => [line]
  | .consumeAll lines => lines

def answer (c : Collector Float) : CollectorCall → Collector Float
  | .consume line => c.consume line
  | .consumeAll lines => c.consumeAll lines

theorem answer_eq (c : Collector Float) (call : CollectorCall) : call.answer c = c.consumeAll call.lines := by
  cases call <;> rfl

/-- Calls in a row are one call with all their lines. -/
theorem foldl_answer (c : Collector Float) (calls : List CollectorCall) :
    calls.foldl answer c = c.consumeAll (calls.flatMap lines) := by
  induction calls generalizing c with
  | nil => rfl
  | cons call calls ih =>
      rw [List.foldl_cons, ih, answer_eq, List.flatMap_cons, Collector.consumeAll_append]

end CollectorCall

namespace MeasurementSet

variable {κ α : Type} [KeyOrder κ]

theorem totalMeasurements_push (s : MeasurementSet κ α) (k : κ) (m : Measurement α) :
    (s.push k m).totalMeasurements = s.totalMeasurements + 1 :=
  (s.series.flatten_values_upsert_perm k m).length_eq

theorem totalMeasurements_pushAll (s : MeasurementSet κ α) (entries : List (κ × Measurement α)) :
    (s.pushAll entries).totalMeasurements = s.totalMeasurements + entries.length := by
  induction entries generalizing s with
  | nil => rfl
  | cons e entries ih =>
      have hhead := s.totalMeasurements_push e.1 e.2
      have htail := ih (s.push e.1 e.2)
      simp only [pushAll, List.foldl_cons, List.length_cons] at htail ⊢
      omega

end MeasurementSet

/-- A line is filed as one measurement, in one of three ways, or as a remark about its node, or not at all. -/
theorem TelemetryLine.one_entry_if_filed {α : Type} [Arith α] (settings : CollectorSettings α)
    (node? : Option NodeId) (line : TelemetryLine α) :
    (line.filedRange? settings node?).toList.length + (line.filedTdoa? settings node?).toList.length +
        (line.filedExchange? settings node?).toList.length + (if line.isStatus then 1 else 0) =
      if line.isFiled settings node? then 1 else 0 := by
  cases line with
  | twoWayRange | tdoa => cases node? <;> rfl
  | rawExchange neighbor exchange =>
      cases node? with
      | none => rfl
      | some node =>
          simp only [filedRange?, filedTdoa?, filedExchange?, isStatus, isAnnouncement, isFinish, isFiled,
            Option.bind_some, Option.isSome_some, Bool.true_and]
          cases exchange.timeOfFlight (α := α) settings.estimator <;> rfl
  | _ => rfl

namespace Collector

/-- The number of measurements in the three sets of a run. -/
def measurementCount (c : Collector Float) : Nat :=
  c.run.twr.totalMeasurements + c.run.tdoa.totalMeasurements + c.run.exchanges.totalMeasurements

/-- The number of lines that were understood as remarks of a node about itself. -/
def statusCount (lines : List StreamLine) : Nat :=
  lines.countP fun line => line.decoded?.any (·.isStatus)

/-- Why a line is dropped: it is not understood, it is a measurement before any address of its stream, or it
holds readings that leave nothing to divide by. -/
inductive Drops (c : Collector Float) (line : StreamLine) : Prop where
  | undecodable (h : line.decoded? = none)
  | range (other parameter range offset)
      (h : line.decoded? = some (.twoWayRange other parameter range offset)) (hnode : c.address? line.stream = none)
  | tdoa (anchor1 anchor2 parameter range)
      (h : line.decoded? = some (.tdoa anchor1 anchor2 parameter range)) (hnode : c.address? line.stream = none)
  | readings (neighbor exchange)
      (h : line.decoded? = some (.rawExchange neighbor exchange)) (hnode : c.address? line.stream = none)
  | degenerate (neighbor exchange) (h : line.decoded? = some (.rawExchange neighbor exchange))
      (htof : exchange.timeOfFlight (α := Float) c.settings.estimator = .error .degenerateExchange)

theorem drops_iff (c : Collector Float) (line : StreamLine) :
    c.Drops line ↔ line.decoded?.any (·.isFiled c.settings (c.address? line.stream)) = false := by
  constructor
  · rintro (h | ⟨_, _, _, _, h, hnode⟩ | ⟨_, _, _, _, h, hnode⟩ | ⟨_, _, h, hnode⟩ | ⟨_, _, h, htof⟩)
    · rw [h]; rfl
    · rw [h, hnode]; rfl
    · rw [h, hnode]; rfl
    · rw [h, hnode]; rfl
    · rw [h]
      simp [TelemetryLine.isFiled, htof, Except.isOk, Except.toBool]
  · intro h
    cases hline : line.decoded? with
    | none => exact .undecodable hline
    | some decoded =>
        rw [hline, Option.any_some] at h
        cases decoded with
        | twoWayRange other parameter range offset =>
            exact .range other parameter range offset hline (by simpa [TelemetryLine.isFiled] using h)
        | tdoa anchor1 anchor2 parameter range =>
            exact .tdoa anchor1 anchor2 parameter range hline (by simpa [TelemetryLine.isFiled] using h)
        | rawExchange neighbor exchange =>
            cases hnode : c.address? line.stream with
            | none => exact .readings neighbor exchange hline hnode
            | some node =>
                cases htof : exchange.timeOfFlight (α := Float) c.settings.estimator with
                | error error =>
                    obtain rfl := Exchange.timeOfFlight_error htof
                    exact .degenerate neighbor exchange hline htof
                | ok tof => simp [TelemetryLine.isFiled, hnode, htof, Except.isOk, Except.toBool] at h
        | _ => cases h

/-- A line that is dropped adds to the lines skipped, and that is all it does. -/
theorem consume_of_drops {c : Collector Float} {line : StreamLine} (h : c.Drops line) : c.consume line = c.skip := by
  rw [consume_eq]
  cases h with
  | undecodable h => rw [h, after_none]
  | range other parameter range offset h hnode =>
      simp only [after, h, hnode]
      rfl
  | tdoa anchor1 anchor2 parameter range h hnode =>
      simp only [after, h, hnode]
      rfl
  | readings neighbor exchange h hnode =>
      simp only [after, h, hnode]
      rfl
  | degenerate neighbor exchange h htof =>
      rw [h, ← record_eq]
      simp only [record, fileUnderAddress, htof]
      cases c.address? line.stream <;> rfl

/-- The balance of a collector that has consumed some lines. -/
structure Balanced (settings : CollectorSettings Float) (lines : List StreamLine) (c : Collector Float) : Prop where
  every_line : c.recorded + c.skipped = lines.length
  every_record : c.measurementCount + statusCount lines = c.recorded
  twr_unit : c.run.twr.unit = settings.rangeUnit
  tdoa_unit : c.run.tdoa.unit = settings.rangeUnit
  exchanges_unit : c.run.exchanges.unit = .ticks

theorem Balanced.new (settings : CollectorSettings Float) : Balanced settings [] (new settings) :=
  ⟨rfl, rfl, rfl, rfl, rfl⟩

theorem Balanced.consume {settings : CollectorSettings Float} {lines : List StreamLine} {c : Collector Float}
    (h : Balanced settings lines c) (line : StreamLine) : Balanced settings (lines ++ [line]) (c.consume line) := by
  obtain ⟨hlines, hrecords, htwr, htdoa, hexchanges⟩ := h
  rw [consume_eq]
  refine ⟨?_, ?_, ?_, ?_, ?_⟩
  · simp only [after, List.length_append, List.length_singleton]
    split <;> omega
  · have hcount : statusCount (lines ++ [line]) =
        statusCount lines + if line.decoded?.any (·.isStatus) then 1 else 0 := by
      simp [statusCount, List.countP_append, List.countP_singleton]
    rw [hcount]
    simp only [measurementCount] at hrecords
    simp only [measurementCount, after, MeasurementSet.totalMeasurements_pushAll]
    cases line.decoded? with
    | none =>
        simp only [Option.bind_none, Option.toList_none, List.length_nil, Option.any_none, Bool.false_eq_true,
          if_false]
        omega
    | some decoded =>
        have hentries := decoded.one_entry_if_filed c.settings (c.address? line.stream)
        simp only [Option.bind_some, Option.any_some]
        split at hentries <;> split at hentries <;> simp_all only [if_true, if_false, Bool.false_eq_true] <;> omega
  · simp only [after, MeasurementSet.pushAll_unit, htwr]
  · simp only [after, MeasurementSet.pushAll_unit, htdoa]
  · simp only [after, MeasurementSet.pushAll_unit, hexchanges]

/-- Whatever lines a new collector consumes, they balance. -/
theorem balanced_consumeAll (settings : CollectorSettings Float) (lines : List StreamLine) :
    Balanced settings lines ((Collector.new settings).consumeAll lines) := by
  induction lines using List.reverseRecOn with
  | nil => exact Balanced.new settings
  | append_singleton lines line ih =>
      have hnext := ih.consume line
      rwa [consume_eq, ← consumeAll_append_singleton] at hnext

/-- In every state that calls lead to, recorded and skipped lines make up the lines consumed, measurements and
remarks make up the lines recorded, and the sets keep their units. A further line is skipped if and only if it is
dropped for one of the three reasons, and then only the count of skipped lines changes. -/
theorem lines_accounted_for (settings : CollectorSettings Float) (calls : List CollectorCall) :
    let c := calls.foldl CollectorCall.answer (new settings)
    let lines := calls.flatMap CollectorCall.lines
    c.recorded + c.skipped = lines.length ∧
    c.run.twr.totalMeasurements + c.run.tdoa.totalMeasurements + c.run.exchanges.totalMeasurements +
      statusCount lines = c.recorded ∧
    c.run.twr.unit = settings.rangeUnit ∧ c.run.tdoa.unit = settings.rangeUnit ∧
    c.run.exchanges.unit = .ticks ∧
    ∀ line, ((c.consume line).skipped ≠ c.skipped ↔ c.Drops line) ∧
      ((c.consume line).skipped ≠ c.skipped → c.consume line = { c with skipped := c.skipped + 1 }) := by
  intro c lines
  have hbalanced : Balanced settings lines c := by
    have h := balanced_consumeAll settings lines
    rwa [← CollectorCall.foldl_answer] at h
  have hskipped : ∀ line, (c.consume line).skipped ≠ c.skipped ↔ c.Drops line := by
    intro line
    rw [drops_iff, consume_eq]
    simp only [after]
    cases line.decoded?.any (·.isFiled c.settings (c.address? line.stream)) <;> simp
  exact ⟨hbalanced.every_line, hbalanced.every_record, hbalanced.twr_unit, hbalanced.tdoa_unit,
    hbalanced.exchanges_unit, fun line => ⟨hskipped line, fun h => consume_of_drops ((hskipped line).1 h)⟩⟩

end Collector

end UwbRanging
