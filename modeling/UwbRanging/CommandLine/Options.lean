import UwbRanging.CommandLine.Request
import UwbRanging.Decimal.Reading

/-!
The options of the command line, and the form of their values.
-/

namespace UwbRanging.CommandLine

inductive OptionName where
  | help
  | version
  | config
  | ports
  | baud
  | simulated
  | outfile
  | infile
  | threshold
  | confidence
  | minCount
  | groundTruth
  | estimator
  | unit
  /-- The words without an option before them. -/
  | timestamps
  deriving DecidableEq, Repr

/-- How many values an option takes. -/
inductive Arity where
  | none
  | one
  | some
  | six
  deriving DecidableEq, Repr

namespace OptionName

/-- The long name, after two dashes. -/
def long : OptionName → String
  | help => "help"
  | version => "version"
  | config => "config"
  | ports => "port"
  | baud => "baud"
  | simulated => "synthetic"
  | outfile => "out"
  | infile => "in"
  | threshold => "threshold"
  | confidence => "confidence"
  | minCount => "min-count"
  | groundTruth => "ground-truth"
  | estimator => "estimator"
  | unit => "unit"
  | timestamps => ""

/-- The short name, after one dash. -/
def short? : OptionName → Option Char
  | help => 'h'
  | version => 'V'
  | config => 'c'
  | ports => 'p'
  | baud => 'b'
  | simulated => 's'
  | outfile => 'o'
  | infile => 'i'
  | threshold => 't'
  | minCount => 'm'
  | groundTruth => 'g'
  | estimator => 'e'
  | unit => 'u'
  | confidence | timestamps => none

def arity : OptionName → Arity
  | help | version => .none
  | ports => .some
  | timestamps => .six
  | _ => .one

end OptionName

/-- The options that may stand before the task. -/
def globalOptions : List OptionName :=
  [.config, .help, .version]

/-- The options of a task. -/
def taskOptions : TaskName → List OptionName
  | .collect => [.ports, .baud, .simulated, .outfile, .config, .help]
  | .evaluate => [.infile, .threshold, .confidence, .minCount, .groundTruth, .outfile, .config, .help]
  | .range => [.estimator, .unit, .config, .help]

/-- What the words of a task are that belong to no option, if it takes any. -/
def positional? : TaskName → Option OptionName
  | .range => some .timestamps
  | .collect | .evaluate => none

/-- The options that a task does not do without. -/
def requiredOptions : TaskName → List OptionName
  | .collect => [.outfile]
  | .evaluate => [.infile]
  | .range => [.timestamps]

/-- A name of a file or a port. -/
def readPath (s : String) : Except ArgError String :=
  if s.isEmpty then .error .invalidValue else .ok s

/-- What a reader found, or the refusal of the value. -/
def orRefuse {α : Type} : Option α → Except ArgError α
  | some a => .ok a
  | none => .error .valueValidation

/-- A count below `bound`: digits, after a plus sign or not. -/
def readCount (bound : Nat) (s : String) : Except ArgError Nat :=
  let digits := match s.toList with
    | '+' :: ds => ds
    | ds => ds
  let n := Decimal.digitsValue 0 digits
  orRefuse (if !digits.isEmpty && digits.all Char.isDigit && n < bound then some n else none)

def readNumber (s : String) : Except ArgError Float :=
  orRefuse (Decimal.ofString? s)

def readUnit (s : String) : Except ArgError LengthUnit :=
  orRefuse (LengthUnit.parse s).toOption

def readEstimator (s : String) : Except ArgError Estimator :=
  orRefuse (Estimator.parse s).toOption

/-- Whether a value has the form that its option asks for. -/
def OptionName.check (o : OptionName) (s : String) : Except ArgError Unit :=
  match o with
  | help | version => .ok ()
  | config | ports | outfile | infile => discard (readPath s)
  | baud => discard (readCount UInt32.size s)
  | simulated | minCount | timestamps => discard (readCount UInt64.size s)
  | threshold | confidence | groundTruth => discard (readNumber s)
  | estimator => discard (readEstimator s)
  | unit => discard (readUnit s)

/-- Whether there are as many values as an option asks for. -/
def OptionName.checkCount (o : OptionName) (values : List String) : Except ArgError Unit :=
  match o.arity, values.length with
  | .none, _ => .ok ()
  | _, 0 => .error .invalidValue
  | .some, _ => .ok ()
  | .one, n => if n = 1 then .ok () else .error .wrongNumberOfValues
  | .six, n => if n = 6 then .ok () else .error .wrongNumberOfValues

end UwbRanging.CommandLine
