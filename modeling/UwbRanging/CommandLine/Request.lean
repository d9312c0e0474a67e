import UwbRanging.Exchange

/-!
What the program can be asked to do, and why it may refuse a command line.
-/

namespace UwbRanging

structure CollectRequest where
  /-- The ports of the nodes; without any, and without simulated nodes, ports are selected on the screen. -/
  ports : List String
  baud : UInt32
  /-- So many simulated nodes in place of ports. -/
  simulated : Option Nat
  /-- The file for the collected run. -/
  outfile : String

structure EvaluateRequest where
  /-- The file of the run. -/
  infile : String
  /-- What is given here takes the place of what the settings say. -/
  threshold : Option Float
  confidence : Option Float
  minCount : Option Nat
  groundTruth : Option Float
  /-- The file for the report. -/
  outfile : Option String

structure RangeRequest where
  /-- The readings of the exchange: six, or several times six if options stand in between. -/
  timestamps : List Nat
  estimator : Estimator
  unit : LengthUnit

inductive TaskRequest where
  | collect (request : CollectRequest)
  | evaluate (request : EvaluateRequest)
  | range (request : RangeRequest)

structure Request where
  task : TaskRequest
  /-- The file of the settings. -/
  config : Option String

/-- The speed at which the firmware prints, in baud. -/
def defaultBaud : UInt32 :=
  115200

inductive TaskName where
  | collect
  | evaluate
  | range
  deriving DecidableEq, Repr

namespace TaskName

def name : TaskName → String
  | collect => "collect"
  | evaluate => "evaluate"
  | range => "range"

def all : List TaskName :=
  [collect, evaluate, range]

end TaskName

/-- Why a command line is no request. -/
inductive ArgError where
  | unknownArgument
  | unknownTask
  | missingTask
  /-- Nothing at all is asked for. -/
  | empty
  /-- An option without a value, or with an empty one where there has to be a name. -/
  | invalidValue
  /-- A value of the wrong form. -/
  | valueValidation
  | wrongNumberOfValues
  /-- A value for an option that takes none. -/
  | tooManyValues
  /-- Two options that exclude each other, or one option twice. -/
  | conflict
  | missingRequired
  /-- Help is asked for, on a task or on all of them. -/
  | help (task : Option TaskName)
  | version
  deriving DecidableEq, Repr

end UwbRanging
