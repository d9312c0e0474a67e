import UwbRanging.Collection.LiveView
import UwbRanging.Collection.Remark
import UwbRanging.CommandLine.Request
import UwbRanging.Evaluation.EvaluationLog
import UwbRanging.Program.Host
import UwbRanging.SavedText.File

/-!
The program: it loads the settings and then collects a run, evaluates one, or computes a single distance. What
goes wrong is logged, and ends it; where a computation breaks off, the program does, without an entry in the log.
-/

namespace UwbRanging

/-- Why a task could not be done. -/
inductive Failure where
  | config (error : ConfigError)
  | source (error : SourceError)
  | terminal (error : TerminalError)
  | persist (error : PersistError)
  | ranging (error : RangingError)
  | notSixTimestamps
  | brokenOff
  deriving DecidableEq, Repr

namespace Failure

def ofInterruption : Interruption → Failure
  | .failed error => ranging error
  | .brokenOff => brokenOff

/-- What is logged about a failure. -/
def message? : Failure → Option String
  | config error => some error.message
  | source error => some error.message
  | terminal error => some error.message
  | persist error => some error.message
  | ranging error => some error.message
  | notSixTimestamps => some "exactly six timestamps are needed"
  | brokenOff => none

/-- The number that the program exits with. -/
def exitCode : Failure → Nat
  | brokenOff => 101
  | _ => 1

end Failure

/-- The value of a computation, or its error as a failure. -/
def orFail {m : Type → Type} [Monad m] {ε α : Type} (f : ε → Failure) : Except ε α → ExceptT Failure m α
  | .ok a => return a
  | .error e => throw (f e)

/-- The settings with what a request says in their place. -/
def EvaluateRequest.override (r : EvaluateRequest) (c : EvaluationConfig Float) : EvaluationConfig Float :=
  { c with
    threshold := r.threshold.getD c.threshold
    confidence := r.confidence.getD c.confidence
    minCount := r.minCount.getD c.minCount
    groundTruth := r.groundTruth <|> c.groundTruth }

/-- The exchange with the readings of a request. -/
def RangeRequest.exchange (r : RangeRequest) : Except Failure Exchange :=
  match r.timestamps with
  | [tA1, rB1, tB1, rA1, tA2, rB2] => (Exchange.ofRaw tA1 rB1 tB1 rA1 tA2 rB2).mapError .ranging
  | _ => .error .notSixTimestamps

namespace Host

variable {m : Type → Type} [Monad m] {σ : Type} (host : Host m σ)

def info (text : String) : m Unit :=
  host.log ⟨.info, .program, text⟩

/-- Reads a value from a file. -/
def load {α : Type} [SavedText.Saved α] (path : String) : ExceptT Failure m α := do
  match ← host.readText path with
  | .ok text => orFail .persist (ofText text)
  | .error fault => throw (.persist (.io fault))

/-- Writes a value to a file. -/
def save {α : Type} [SavedText.Saved α] (path : String) (a : α) : ExceptT Failure m Unit := do
  match ← host.writeText path (toText a) with
  | .ok () => return
  | .error fault => throw (.persist (.io fault))

/-- The settings in a file, or the default ones. -/
def loadConfig : Option String → ExceptT Failure m (EvaluationConfig Float)
  | none => return .default
  | some path => do
    host.info ("Loading settings from " ++ path)
    match ← host.readText path with
    | .ok text => orFail .config (EvaluationConfig.ofText text)
    | .error fault => throw (.config (.persist (.io fault)))

/-- Consumes every line that is there. -/
def consumeAvailable (s : σ × Collector Float) : m (σ × Collector Float) := do
  let (lines, source) ← host.drain s.1
  (s.2.logOf lines).forM host.log
  return (source, s.2.consumeAll lines)

/-- Collects from a source until a key is pressed. -/
def collectFrom (source : σ) (config : EvaluationConfig Float) : ExceptT Failure m (CollectedRun Float) := do
  let (drawn, s) ← host.foldUntilStop "Collecting Telemetry..." Collector.waiting
    (source, Collector.new config.collectorSettings) host.consumeAvailable
    fun s => s.2.describe config.window
  match drawn with
  | .error error => do
    host.close s.1
    throw (.terminal error)
  | .ok () => do
    let (source, collector) ← host.consumeAvailable s
    host.close source
    host.log collector.closingEntry
    return collector.run

/-- The source that a request names; none if the user selects no port. -/
def openSource (r : CollectRequest) : ExceptT Failure m (Option σ) := do
  match r.simulated with
  | some n => do
    host.info ("Simulating " ++ toString n ++ " nodes")
    return some (← host.startSimulation { SimulationSettings.default with nodes := n })
  | none => do
    let ports ← if r.ports.isEmpty then select else pure r.ports
    if ports.isEmpty then
      host.info "No device selected, nothing to do"
      return none
    else return some (← orFail .source (← host.openPorts ports r.baud))
where
  select : ExceptT Failure m (List String) := do
    let present ← host.presentPorts
    if present.isEmpty then throw (.terminal .noDevices)
    orFail .terminal (← host.selectPorts present)

def collect (r : CollectRequest) (config : EvaluationConfig Float) : ExceptT Failure m Unit := do
  match ← host.openSource r with
  | none => return
  | some source => do
    let run ← host.collectFrom source config
    host.info ("Writing " ++ toString run.twr.totalMeasurements ++ " ranges, "
      ++ toString run.exchanges.totalMeasurements ++ " exchanges and "
      ++ toString run.tdoa.totalMeasurements ++ " TDoA values to " ++ r.outfile)
    host.save r.outfile run

def evaluate (r : EvaluateRequest) (config : EvaluationConfig Float) : ExceptT Failure m Unit := do
  let config ← orFail .config (r.override config).validate
  let run : CollectedRun Float ← host.load r.infile
  (evaluationLog run config).forM fun entry => host.log entry
  let report ← orFail .ofInterruption (evaluateRun run config)
  host.print (report.table ++ "\n")
  match r.outfile with
  | none => return
  | some path => do
    host.save path report
    host.info ("Report written to " ++ path)

def range (r : RangeRequest) : ExceptT Failure m Unit := do
  let exchange ← orFail id r.exchange
  let distance : Length Float ← orFail .ranging (exchange.distance r.estimator)
  host.info exchange.render
  host.print ((distance.convert r.unit).render ++ "\n")

def perform (r : Request) : ExceptT Failure m Unit := do
  let config ← host.loadConfig r.config
  match r.task with
  | .collect r => host.collect r config
  | .evaluate r => host.evaluate r config
  | .range r => host.range r

/-- Does what is asked for, and gives the number that the program exits with. -/
def run (r : Request) : m Nat := do
  match ← (host.perform r).run with
  | .ok () => return 0
  | .error failure => do
    failure.message?.forM fun text => host.log ⟨.error, .program, text⟩
    return failure.exitCode

end Host

end UwbRanging
