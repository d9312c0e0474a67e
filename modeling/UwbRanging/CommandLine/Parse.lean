import UwbRanging.CommandLine.Options

/-!
Reading a command line word by word. Words that begin with a dash are options, up to two dashes that stand
alone; the words after an option are its values as long as it takes more. An option is settled, its values
counted and checked, once the next one begins, so of two faults usually the earlier one is reported; but what
is no option at all is reported at once.
-/

namespace UwbRanging.CommandLine

/-- The options settled so far, with their values. -/
abbrev Settled :=
  List (OptionName × List String)

/-- Which words are understood: those before the task or those after it. -/
structure Grammar where
  options : List OptionName
  positional : Option OptionName
  /-- What help is about here. -/
  topic : Option TaskName

def Grammar.global : Grammar :=
  ⟨globalOptions, none, none⟩

def Grammar.ofTask (t : TaskName) : Grammar :=
  ⟨taskOptions t, positional? t, some t⟩

structure ReadState where
  settled : Settled
  /-- The option whose values are being read, and these values. -/
  pending : Option (OptionName × List String)
  /-- Whether the next word without a dash is a value of the pending option. -/
  takesMore : Bool

namespace ReadState

def empty : ReadState :=
  ⟨[], none, false⟩

/-- Adds an option with all of its values. An option that takes one value is given once, one that takes some
can be given again. -/
def settle (s : ReadState) (o : OptionName) (values : List String) : Except ArgError ReadState := do
  o.checkCount values
  if o.arity = .one && s.settled.any (·.1 = o) then throw .conflict
  values.forM o.check
  return ⟨s.settled ++ [(o, values)], none, false⟩

/-- Settles the pending option. -/
def settlePending (s : ReadState) : Except ArgError ReadState :=
  match s.pending with
  | some (o, values) => { s with pending := none }.settle o values
  | none => .ok { s with takesMore := false }

/-- An option, with the value attached to it if there is one. -/
def option (s : ReadState) (topic : Option TaskName) (o : OptionName) (attached : Option String) :
    Except ArgError ReadState := do
  let s ← s.settlePending
  match o, attached with
  | .help, _ => throw (.help topic)
  | .version, _ => throw .version
  | _, some value => s.settle o [value]
  | _, none => return { s with pending := some (o, []), takesMore := true }

/-- A value of the pending option. -/
def value (s : ReadState) (word : String) : ReadState :=
  match s.pending with
  | some (o, values) => { s with pending := some (o, values ++ [word]), takesMore := o.arity = .some }
  | none => s

/-- A word that belongs to no option. -/
def positionalWord (s : ReadState) (o : OptionName) (word : String) : Except ArgError ReadState :=
  match s.pending with
  | some (p, values) =>
    if p = o then .ok { s with pending := some (o, values ++ [word]) }
    else do return { ← s.settlePending with pending := some (o, [word]) }
  | none => .ok { s with pending := some (o, [word]) }

end ReadState

/-- A long option, with a value after an equals sign or without. -/
def readLong (g : Grammar) (s : ReadState) (word : List Char) : Except ArgError ReadState :=
  let name := String.ofList (word.takeWhile (· ≠ '='))
  let attached := match word.dropWhile (· ≠ '=') with
    | _ :: value => some (String.ofList value)
    | [] => none
  match g.options.find? (·.long = name) with
  | none => .error .unknownArgument
  | some o =>
    if o.arity = .none && attached.isSome then .error .tooManyValues else s.option g.topic o attached

/-- Short options one after the other; what follows one that takes values is its value, an equals sign in
between does not count. -/
def readShort (g : Grammar) (s : ReadState) : List Char → Except ArgError ReadState
  | [] => .ok s
  | c :: rest =>
    match g.options.find? (·.short? = some c) with
    | none => .error .unknownArgument
    | some o =>
      if o.arity = .none then do
        let s ← s.option g.topic o none
        readShort g s rest
      else match rest with
        | [] => s.option g.topic o none
        | '=' :: value => s.option g.topic o (some (String.ofList value))
        | value => s.option g.topic o (some (String.ofList value))

/-- What a word in front of the task can be. -/
inductive Command where
  | task (t : TaskName)
  | help
  deriving DecidableEq, Repr

def Command.ofWord? (word : String) : Option Command :=
  if word = "help" then some .help else (TaskName.all.find? (·.name = word)).map task

/-- The help that the words after a request for help ask for. -/
def helpTopic : List String → ArgError
  | [] => .help none
  | [word] =>
    match Command.ofWord? word with
    | some (.task t) => .help (some t)
    | some .help => .help none
    | none => .unknownTask
  | _ => .unknownTask

/-- A word that belongs to no option. In front of the task it can only be a misspelt task, after two dashes
also a task out of place. -/
def readPositional (g : Grammar) (s : ReadState) (dashed : Bool) (word : String) :
    Except ArgError ReadState :=
  match g.positional, g.topic with
  | some o, _ => s.positionalWord o word
  | none, some _ => .error .unknownArgument
  | none, none =>
    if dashed && (Command.ofWord? word).isSome then .error .unknownArgument else .error .unknownTask

/-- Reads words up to the end or, in front of the task, up to the task; gives back the task and the words
after it. -/
def readWords (g : Grammar) (s : ReadState) :
    List String → Except ArgError (ReadState × Option (TaskName × List String))
  | [] => .ok (s, none)
  | word :: words =>
    match if g.topic.isNone && !s.takesMore then Command.ofWord? word else none with
    | some .help => .error (helpTopic words)
    | some (.task t) => .ok (s, some (t, words))
    | none =>
      match word.toList with
      | ['-', '-'] => do return (← words.foldlM (fun s w => readPositional g s true w) s, none)
      | '-' :: '-' :: name => do readWords g (← readLong g s name) words
      | '-' :: c :: rest => do readWords g (← readShort g s (c :: rest)) words
      | _ =>
        if s.takesMore then readWords g (s.value word) words
        else do readWords g (← readPositional g s false word) words

/-- The values of an option, all its occurrences together. -/
def Settled.values (s : Settled) (o : OptionName) : List String :=
  (s.filter (·.1 = o)).flatMap Prod.snd

/-- The value of an option that is given at most once. -/
def Settled.value? {α : Type} (s : Settled) (o : OptionName) (read : String → Except ArgError α) :
    Except ArgError (Option α) :=
  match s.values o with
  | [] => .ok none
  | value :: _ => do return some (← read value)

def Settled.required (s : Settled) (o : OptionName) : Except ArgError String :=
  match s.values o with
  | [] => .error .missingRequired
  | value :: _ => .ok value

/-- The task that the settled options ask for. -/
def buildTask (s : Settled) : TaskName → Except ArgError TaskRequest
  | .collect => do
    return .collect {
      ports := s.values .ports
      baud := ((← s.value? .baud (readCount UInt32.size)).map UInt32.ofNat).getD defaultBaud
      simulated := ← s.value? .simulated (readCount UInt64.size)
      outfile := ← s.required .outfile
    }
  | .evaluate => do
    return .evaluate {
      infile := ← s.required .infile
      threshold := ← s.value? .threshold readNumber
      confidence := ← s.value? .confidence readNumber
      minCount := ← s.value? .minCount (readCount UInt64.size)
      groundTruth := ← s.value? .groundTruth readNumber
      outfile := ← s.value? .outfile readPath
    }
  | .range => do
    return .range {
      timestamps := ← (s.values .timestamps).mapM (readCount UInt64.size)
      estimator := (← s.value? .estimator readEstimator).getD .asymmetric
      unit := (← s.value? .unit readUnit).getD .meters
    }

/-- Options that exclude each other, and options that are missing. -/
def checkTogether (s : Settled) (t : TaskName) : Except ArgError Unit := do
  let isGiven (o : OptionName) := s.any (·.1 = o)
  if isGiven .ports && isGiven .simulated then throw .conflict
  if !(requiredOptions t).all isGiven then throw .missingRequired

/-- Reads the words after the task. -/
def readTask (t : TaskName) (words : List String) : Except ArgError Request := do
  let (s, _) ← readWords (.ofTask t) .empty words
  let settled := (← s.settlePending).settled
  checkTogether settled t
  return ⟨← buildTask settled t, ← settled.value? .config readPath⟩

/-- Reads a command line, without the name of the program. Settings named after the task take the place of
settings named before it. -/
def parse (words : List String) : Except ArgError Request := do
  let (s, found) ← readWords .global .empty words
  match found with
  | some (t, words) =>
    let request ← readTask t words
    let config ← (← s.settlePending).settled.value? .config readPath
    return { request with config := request.config <|> config }
  | none =>
    let s ← s.settlePending
    throw (if s.settled.isEmpty then .empty else .missingTask)

end UwbRanging.CommandLine
