import UwbRanging.Decimal.Fixed
import UwbRanging.Evaluation.Report
import UwbRanging.Text.Padding

/-!
A report as a table to read.
-/

namespace UwbRanging

open Text

/-- Distances have two places. -/
def tableNumber (x : Float) : String :=
  Decimal.fixed 2 x

/-- The columns of a row: the pair to the left of its column, all else to the right. -/
def tableRow (pair : String) (columns : List (Nat × String)) : String :=
  String.join (padRight 18 pair :: columns.map fun (width, s) => " " ++ padLeft width s) ++ "\n"

def tableHeader : String :=
  tableRow "pair" [(6, "n"), (10, "mean"), (9, "std"), (10, "ci_low"), (10, "ci_high"), (9, "error")]

def RangeKey.render (k : RangeKey) : String :=
  "(" ++ toString k.1.toNat ++ ", " ++ toString k.2.toNat ++ ")"

def TdoaKey.render (k : TdoaKey) : String :=
  "(" ++ toString k.1.toNat ++ ", " ++ toString k.2.1.toNat ++ ", " ++ toString k.2.2.toNat ++ ")"

def PairEvaluation.tableRow {κ : Type} (key : κ → String) (row : PairEvaluation κ Float) : String :=
  let s := row.pair.summary
  UwbRanging.tableRow (key row.pair.key) [(6, toString s.count), (10, tableNumber s.mean),
    (9, tableNumber s.stdDev), (10, tableNumber s.ciLow), (10, tableNumber s.ciHigh),
    (9, (row.error.map tableNumber).getD "-")]

/-- A section with a title and its rows; without rows there is no section. -/
def tableSection {κ : Type} (title : String) (unit : LengthUnit) (key : κ → String)
    (rows : List (PairEvaluation κ Float)) : String :=
  if rows.isEmpty then ""
  else title ++ " [" ++ unit.suffix ++ "]\n" ++ tableHeader
    ++ String.join (rows.map (·.tableRow key)) ++ "\n"

namespace RunActivity

def nodeLine (a : RunActivity Float) (node : NodeId) (count : Nat) : String :=
  let rate := (a.rates.bind (·.get? node)).map fun r => ", " ++ tableNumber r ++ "/s"
  "  node " ++ toString node.toNat ++ ": " ++ toString count ++ " measurements" ++ rate.getD "" ++ "\n"

def table (a : RunActivity Float) : String :=
  let duration := (a.duration.map fun d => ", " ++ tableNumber d ++ " s").getD ""
  "Parameters " ++ toString a.first.toNat ++ "..=" ++ toString a.last.toNat ++ " ("
    ++ toString a.span.toNat ++ " steps" ++ duration ++ ")\n"
    ++ String.join (a.counts.entries.map fun (node, count) => a.nodeLine node count) ++ "\n"

end RunActivity

/-- The counts of what was left out of a report. -/
def EvaluationReport.footer {α : Type} (r : EvaluationReport α) : String :=
  toString r.outliers ++ " outliers removed, " ++ toString r.pruned ++ " sparse pairs dropped"

/-- The sections of the report, the activity of the run, and the counts of what was left out. -/
def EvaluationReport.table (r : EvaluationReport Float) : String :=
  tableSection "Two-way ranging" r.unit RangeKey.render r.twr
    ++ tableSection "Raw exchanges" r.unit RangeKey.render r.exchanges
    ++ tableSection "TDoA" r.unit TdoaKey.render r.tdoa
    ++ (r.activity.map RunActivity.table).getD ""
    ++ r.footer

end UwbRanging
