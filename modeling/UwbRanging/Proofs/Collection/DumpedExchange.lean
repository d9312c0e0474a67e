import UwbRanging.Proofs.Collection.History
import UwbRanging.Proofs.Telemetry.Printing

/-!
What a collector files for a dumped exchange is what the estimator gives for the six readings themselves.
-/

namespace UwbRanging

theorem MeasurementSet.push_injective {κ α : Type} [DecidableEq κ] [KeyOrder κ] (s : MeasurementSet κ α) (k : κ) :
    Function.Injective (s.push k) := by
  intro m₁ m₂ h
  have hseries := congrArg (·.series? k) h
  simpa only [series?_push, if_pos, Option.some.injEq, List.append_cancel_left_eq, List.cons.injEq, and_true]
    using hseries

namespace Collector

/-- Files one estimate from clock readings of a node and its neighbor. -/
def fileExchange (c : Collector Float) (node neighbor : NodeId) (x : Float) : Collector Float :=
  c.file fun run => { run with exchanges := run.exchanges.push (node, neighbor) ⟨0, x⟩ }

theorem fileExchange_injective (c : Collector Float) (node neighbor : NodeId) :
    Function.Injective (c.fileExchange node neighbor) := by
  intro x y h
  have hpush := c.run.exchanges.push_injective (node, neighbor) (congrArg (·.run.exchanges) h)
  exact congrArg Measurement.distance hpush

theorem fileExchange_ne_skip (c : Collector Float) (node neighbor : NodeId) (x : Float) :
    c.fileExchange node neighbor x ≠ c.skip := by
  intro h
  exact Nat.succ_ne_self c.recorded (congrArg Collector.recorded h)

section Filing

variable {c : Collector Float} {stream : String} {node : NodeId} (hnode : c.address? stream = some node)
  (neighbor : NodeId) {e : Exchange}

include hnode

theorem consume_dumpLine_of_ok {tof : Float} (htof : e.timeOfFlight c.settings.estimator = .ok tof) :
    c.consume ⟨stream, e.dumpLine neighbor⟩ = c.fileExchange node neighbor tof := by
  simp only [consume, Telemetry.decode_dumpLine, record, fileUnderAddress, hnode, htof]
  rfl

theorem consume_dumpLine_of_error {error : RangingError}
    (htof : e.timeOfFlight (α := Float) c.settings.estimator = .error error) :
    c.consume ⟨stream, e.dumpLine neighbor⟩ = c.skip := by
  simp only [consume, Telemetry.decode_dumpLine, record, fileUnderAddress, hnode, htof]

end Filing

/-- A dumped exchange is decoded as that exchange. For a stream with an address exactly one exchange is filed, and
what is filed is the estimate from the six readings; the line is skipped if and only if there is no estimate. -/
theorem dumped_exchange_files_estimate (neighbor : NodeId) (e : Exchange) :
    Telemetry.decode (e.dumpLine neighbor) = .ok (.rawExchange neighbor e) ∧
    ∀ (c : Collector Float) (stream : String) (node : NodeId), c.address? stream = some node →
      let after := c.consume ⟨stream, e.dumpLine neighbor⟩
      let computed : Except RangingError (Length Float) := do
        let given ← Exchange.ofRaw e.tA1.ticks e.rB1.ticks e.tB1.ticks e.rA1.ticks e.tA2.ticks e.rB2.ticks
        given.distance c.settings.estimator
      (∀ x, after = c.fileExchange node neighbor x ↔ computed = .ok ⟨x, .ticks⟩) ∧
        (after = c.skip ↔ ∃ error, computed = .error error) := by
  refine ⟨Telemetry.decode_dumpLine neighbor e, fun c stream node hnode => ?_⟩
  intro after computed
  have hgiven : Exchange.ofRaw e.tA1.ticks e.rB1.ticks e.tB1.ticks e.rA1.ticks e.tA2.ticks e.rB2.ticks = .ok e :=
    Exchange.ofRaw_eq_ok_iff.2 rfl
  have hcomputed : computed = (e.timeOfFlight c.settings.estimator).map fun tof => ⟨tof, .ticks⟩ := by
    simp only [computed, hgiven]
    rfl
  cases htof : e.timeOfFlight (α := Float) c.settings.estimator with
  | ok tof =>
      have hafter : after = c.fileExchange node neighbor tof := consume_dumpLine_of_ok hnode neighbor htof
      rw [hafter, hcomputed, htof]
      refine ⟨fun x => ?_, ?_⟩
      · rw [(c.fileExchange_injective node neighbor).eq_iff]
        simp [Except.map]
      · simp [Except.map, c.fileExchange_ne_skip node neighbor tof]
  | error error =>
      have hafter : after = c.skip := consume_dumpLine_of_error hnode neighbor htof
      rw [hafter, hcomputed, htof]
      refine ⟨fun x => ?_, ?_⟩
      · simp [Except.map, (c.fileExchange_ne_skip node neighbor x).symm]
      · simp [Except.map]

/-- The node of the console is known to have the address 200. -/
def joinedConsole : Collector Float :=
  (new .default).consume ⟨"console", "TA, 0, 200"⟩

/-- The clock of the initiator wraps between its messages. -/
def wrappingExchange : Exchange :=
  ⟨⟨clockPeriod - 1, by decide⟩, ⟨0, by decide⟩, ⟨10, by decide⟩, ⟨19, by decide⟩, ⟨29, by decide⟩, ⟨30, by decide⟩⟩

/-- No clock moves. -/
def standingExchange : Exchange :=
  ⟨⟨7, by decide⟩, ⟨7, by decide⟩, ⟨7, by decide⟩, ⟨7, by decide⟩, ⟨7, by decide⟩, ⟨7, by decide⟩⟩

theorem dumped_exchange_files_estimate_or_skips :
    joinedConsole.address? "console" = some 200 ∧
    joinedConsole.consume ⟨"console", wrappingExchange.dumpLine 201⟩ = joinedConsole.fileExchange 200 201 5 ∧
    joinedConsole.consume ⟨"console", standingExchange.dumpLine 201⟩ = joinedConsole.skip := by
  have hnode : joinedConsole.address? "console" = some 200 := by decide +kernel
  have hwrapping : wrappingExchange.distance (α := Float) .asymmetric = .ok ⟨5, .ticks⟩ := by rfl
  have hstanding : standingExchange.distance (α := Float) .asymmetric = .error .degenerateExchange := by rfl
  refine ⟨hnode, ?_, ?_⟩
  · exact (((dumped_exchange_files_estimate 201 wrappingExchange).2 _ _ _ hnode).1 5).2 hwrapping
  · exact ((dumped_exchange_files_estimate 201 standingExchange).2 _ _ _ hnode).2.2 ⟨_, hstanding⟩

end Collector

end UwbRanging
