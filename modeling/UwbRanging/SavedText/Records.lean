import UwbRanging.Evaluation.Report
import UwbRanging.SavedText.Record

/-!
The records that are saved: clock readings and exchanges, runs, settings and reports.
-/

namespace UwbRanging.SavedText

open Statistics

/-- A reading is written as its ticks; what is wider than the clock is refused. -/
instance : Saved Timestamp :=
  .via Timestamp.ticks fun raw => (Timestamp.ofRaw raw).toOption

instance : Saved LengthUnit :=
  .ofNames LengthUnit.name [.ticks, .centimeters, .meters]

instance : Saved Estimator :=
  .ofNames Estimator.name [.asymmetric, .driftCompensated]

instance : Saved (Length Float) :=
  .record "Length" [required "value" Float, required "unit" LengthUnit]
    (fun l => (l.value, l.unit, ())) (fun (value, unit, ()) => ⟨value, unit⟩)

instance : Saved Exchange :=
  .record "DsTwrExchange"
    [required "t_a1" Timestamp, required "r_b1" Timestamp, required "t_b1" Timestamp,
      required "r_a1" Timestamp, required "t_a2" Timestamp, required "r_b2" Timestamp]
    (fun e => (e.tA1, e.rB1, e.tB1, e.rA1, e.tA2, e.rB2, ()))
    (fun (tA1, rB1, tB1, rA1, tA2, rB2, ()) => ⟨tA1, rB1, tB1, rA1, tA2, rB2⟩)

instance : Saved OverheardExchange :=
  .record "PassiveTdoaExchange"
    [required "exchange" Exchange, required "r_l1" Timestamp, required "r_l2" Timestamp,
      required "r_l3" Timestamp]
    (fun o => (o.exchange, o.rL1, o.rL2, o.rL3, ()))
    (fun (exchange, rL1, rL2, rL3, ()) => ⟨exchange, rL1, rL2, rL3⟩)

instance : Saved (Measurement Float) :=
  .record "Measurement" [required "parameter" UInt32, required "distance" Float]
    (fun m => (m.parameter, m.distance, ())) (fun (parameter, distance, ()) => ⟨parameter, distance⟩)

instance {κ : Type} [KeyOrder κ] [Saved κ] : Saved (MeasurementSet κ Float) :=
  .record "MeasurementSet"
    [required "unit" LengthUnit, required "series" (SortedMap κ (List (Measurement Float)))]
    (fun s => (s.unit, s.series, ())) (fun (unit, series, ()) => ⟨unit, series⟩)

instance : Saved StreamInfo :=
  .record "StreamInfo"
    [optional "address" NodeId, optional "link_address" (UInt32 × UInt32), optional "timeslot" UInt32,
      optional "associated" Bool, required "neighbors" (List NodeId),
      required "config" (SortedMap String String)]
    (fun i => (i.address, i.linkAddress, i.timeslot, i.associated, i.neighbors, i.config, ()))
    (fun (address, linkAddress, timeslot, associated, neighbors, config, ()) =>
      ⟨address, linkAddress, timeslot, associated, neighbors, config⟩)

instance : Saved (CollectedRun Float) :=
  .record "CollectedRun"
    [required "twr" (MeasurementSet RangeKey Float), required "tdoa" (MeasurementSet TdoaKey Float),
      required "exchanges" (MeasurementSet RangeKey Float),
      required "streams" (SortedMap String StreamInfo)]
    (fun r => (r.twr, r.tdoa, r.exchanges, r.streams, ()))
    (fun (twr, tdoa, exchanges, streams, ()) => ⟨twr, tdoa, exchanges, streams⟩)

instance : Saved (CollectorSettings Float) :=
  .record "CollectorSettings"
    [required "range_unit" LengthUnit, required "range_scale" Float, required "estimator" Estimator]
    (fun s => (s.rangeUnit, s.rangeScale, s.estimator, ()))
    (fun (rangeUnit, rangeScale, estimator, ()) => ⟨rangeUnit, rangeScale, estimator⟩)

instance : Saved (Position Float) :=
  .record "Position" [required "x" Float, required "y" Float, required "z" Float]
    (fun p => (p.x, p.y, p.z, ())) (fun (x, y, z, ()) => ⟨x, y, z⟩)

/-- The fields of the settings. A file need only name those that it changes. -/
def configFields : List Field :=
  let d : EvaluationConfig Float := .default
  [defaulted "threshold" d.threshold, defaulted "confidence" d.confidence,
    defaulted "min_count" d.minCount, defaulted "range_unit" d.rangeUnit,
    defaulted "range_scale" d.rangeScale, defaulted "estimator" d.estimator,
    defaulted "ground_truth" d.groundTruth, defaulted "positions" d.positions,
    defaulted "window" d.window, defaulted "parameter_step" d.parameterStep]

instance : Saved (EvaluationConfig Float) :=
  .record "EvaluationConfig" configFields
    (fun c => (c.threshold, c.confidence, c.minCount, c.rangeUnit, c.rangeScale, c.estimator,
      c.groundTruth, c.positions, c.window, c.parameterStep, ()))
    (fun (threshold, confidence, minCount, rangeUnit, rangeScale, estimator, groundTruth, positions, window,
        parameterStep, ()) =>
      ⟨threshold, confidence, minCount, rangeUnit, rangeScale, estimator, groundTruth, positions, window,
        parameterStep⟩)

instance : Saved (Summary Float) :=
  .record "Summary"
    [required "count" Nat, required "mean" Float, required "std_dev" Float, required "ci_low" Float,
      required "ci_high" Float]
    (fun s => (s.count, s.mean, s.stdDev, s.ciLow, s.ciHigh, ()))
    (fun (count, mean, stdDev, ciLow, ciHigh, ()) => ⟨count, mean, stdDev, ciLow, ciHigh⟩)

instance : Saved (ParameterReport Float) :=
  .record "ParameterReport"
    [required "parameters" (List UInt32), required "counts" (List Nat), required "means" (List Float),
      required "std_devs" (List Float), required "ci_lows" (List Float), required "ci_highs" (List Float),
      optional "errors" (List Float)]
    (fun r => (r.parameters, r.counts, r.means, r.stdDevs, r.ciLows, r.ciHighs, r.errors, ()))
    (fun (parameters, counts, means, stdDevs, ciLows, ciHighs, errors, ()) =>
      ⟨parameters, counts, means, stdDevs, ciLows, ciHighs, errors⟩)

instance {κ : Type} [Saved κ] : Saved (PairSummary κ Float) :=
  .record "PairSummary"
    [required "key" κ, required "summary" (Summary Float), required "by_parameter" (ParameterReport Float)]
    (fun p => (p.key, p.summary, p.byParameter, ()))
    (fun (key, summary, byParameter, ()) => ⟨key, summary, byParameter⟩)

instance {κ : Type} [Saved κ] : Saved (PairEvaluation κ Float) :=
  .record "PairEvaluation"
    [required "pair" (PairSummary κ Float), optional "ground_truth" Float, optional "error" Float]
    (fun p => (p.pair, p.groundTruth, p.error, ()))
    (fun (pair, groundTruth, error, ()) => ⟨pair, groundTruth, error⟩)

instance : Saved (RunActivity Float) :=
  .record "RunActivity"
    [required "first" UInt32, required "last" UInt32, required "counts" (SortedMap NodeId Nat),
      optional "duration" Float, optional "rates" (SortedMap NodeId Float)]
    (fun a => (a.first, a.last, a.counts, a.duration, a.rates, ()))
    (fun (first, last, counts, duration, rates, ()) => ⟨first, last, counts, duration, rates⟩)

instance : Saved (EvaluationReport Float) :=
  .record "EvaluationReport"
    [required "unit" LengthUnit, required "twr" (List (PairEvaluation RangeKey Float)),
      required "exchanges" (List (PairEvaluation RangeKey Float)),
      required "tdoa" (List (PairEvaluation TdoaKey Float)),
      required "derived_tdoa" (SortedMap TdoaKey Float), required "outliers" Nat, required "pruned" Nat,
      optional "activity" (RunActivity Float)]
    (fun r => (r.unit, r.twr, r.exchanges, r.tdoa, r.derivedTdoa, r.outliers, r.pruned, r.activity, ()))
    (fun (unit, twr, exchanges, tdoa, derivedTdoa, outliers, pruned, activity, ()) =>
      ⟨unit, twr, exchanges, tdoa, derivedTdoa, outliers, pruned, activity⟩)

end UwbRanging.SavedText
