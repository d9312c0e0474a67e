import UwbRanging.Collection.SerialSource
import UwbRanging.CommandLine.Help
import UwbRanging.CommandLine.Parse
import UwbRanging.Program.Run
import UwbRanging.Terminal.DeviceSelector
import UwbRanging.Terminal.FoldUntilStop

/-!
Surroundings that are a value: a folder, a terminal at which keys are pressed at a known time, and random
numbers from a known source. In them the program is a function.
-/

namespace UwbRanging

open Terminal

/-- A terminal and what is typed on it. -/
structure TypingTerminal where
  size : Size
  /-- What is typed, all at once. -/
  typed : String
  /-- The typing begins when so many lines have been collected. -/
  afterLines : Nat

structure Surroundings where
  folder : Folder
  terminal : Option TypingTerminal
  random : RandomSource
  /-- The serial ports that there are. -/
  ports : List String
  /-- What has been printed. -/
  printed : String
  /-- What has been logged, latest first. -/
  logged : Log
  /-- What the terminal showed last. -/
  screen : Option Screen
  /-- How many lines have been collected. -/
  collected : Nat

/-- Effects on surroundings. -/
abbrev Rehearsal :=
  StateM Surroundings

inductive RehearsedSource where
  | serial (source : SerialSource)
  | simulated (testbed : SimulatedTestbed)

namespace Rehearsal

def readText (path : String) : Rehearsal (Except IoFault String) := do
  return (← get).folder.readText path

def writeText (path content : String) : Rehearsal (Except IoFault Unit) := do
  let s ← get
  match s.folder.writeText path content with
  | .error fault => return .error fault
  | .ok folder => do
    set { s with folder }
    return .ok ()

def log (entry : LogEntry) : Rehearsal Unit :=
  modify fun s => { s with logged := entry :: s.logged }

/-- There is no device behind the name of the terminal. -/
def noTerminal : TerminalError :=
  .io .noSuchDevice

def selectPorts (ports : List String) : Rehearsal (Except TerminalError (List String)) := do
  let s ← get
  match s.terminal with
  | none => return .error noTerminal
  | some t =>
    match (DeviceSelector.new ports).run t.size 0 (typedKeys t.typed) with
    | none => return .error .noResult
    | some (selection, screen) => do
      set { s with screen := some screen }
      return .ok selection

/-- Everything that arrives at the ports is there at once. -/
def openPorts (ports : List String) : Rehearsal (Except SourceError RehearsedSource) := do
  let folder := (← get).folder
  return (SerialSource.openPorts folder ports).map fun source =>
    .serial (ports.foldl (fun s port => s.receive port (folder.openConsole port).toOption.toList.flatten) source)

/-- Runs a computation that chance has a part in. -/
def drawing {α : Type} (f : StateM RandomSource α) : Rehearsal α := do
  let s ← get
  let (a, random) := f.run s.random
  set { s with random }
  return a

/-- A simulation goes on by one round before its lines are taken. -/
def drain : RehearsedSource → Rehearsal (List StreamLine × RehearsedSource)
  | .serial source => counted (source.drain.map id .serial)
  | .simulated testbed => do
    let testbed ← drawing testbed.proceed
    counted (testbed.drain.map id .simulated)
where
  counted (p : List StreamLine × RehearsedSource) : Rehearsal (List StreamLine × RehearsedSource) := do
    modify fun s => { s with collected := s.collected + p.1.length }
    return p

def close : RehearsedSource → Rehearsal Unit
  | .serial _ => return
  | .simulated _ => log ⟨.debug, .simulation, "Synthetic testbed stopped"⟩

/-- The next move of a fold: each step is drawn before the worker goes on, and the key is pressed when it is
time. -/
def nextMove {τ : Type} (s : FoldState (τ × Surroundings)) : FoldMove :=
  match s.worker, s.foreground with
  | _, .stopping _ => .tell
  | .working (_, w), .taking => if w.terminal.isNone then .drawingFails noTerminal else .work
  | .working _, .polling => .idle
  | .working _, _ => .work
  | .reporting _, _ => .report
  | .looking _, .taking => .take
  | .looking _, .drawing => .draw
  | .looking (_, w), .polling =>
    if w.terminal.any fun t => t.afterLines ≤ w.collected && !(typedKeys t.typed).isEmpty then .key else .look
  | .looking _, _ => .look
  | .handingOver _, _ => .handOver
  | .leaving, _ => .finish
  | .ended, .receiving _ => .receive
  | .ended, _ => .join

/-- How many moves there are at most until so many lines have been collected. -/
def fuelFor (lines : Nat) : Nat :=
  8 * lines + 32

def foldUntilStop {τ : Type} (title : String) (waiting : List String) (init : τ) (step : τ → Rehearsal τ)
    (describe : τ → List String) : Rehearsal (Except TerminalError Unit × τ) := do
  let s ← get
  let fold := (FoldState.start waiting (init, s)).run (fun (a, s) => (step a).run s) (fun (a, _) => describe a)
    nextMove (fuelFor ((s.terminal.map TypingTerminal.afterLines).getD 0))
  match fold.outcome? with
  | none => return (.error .noResult, init)
  | some (drawn, a, s) => do
    let screen := s.terminal.bind fun t => fold.frames.head?.map
      (Screen.box t.size (" " ++ title ++ " ") " Press any key to stop ")
    set { s with screen := screen <|> s.screen }
    return (drawn, a)

def host : Host Rehearsal RehearsedSource where
  readText := readText
  writeText := writeText
  print text := modify fun s => { s with printed := s.printed ++ text }
  log := log
  presentPorts := do return (← get).ports
  selectPorts := selectPorts
  openPorts ports _ := openPorts ports
  startSimulation settings := do return .simulated (← drawing (SimulatedTestbed.start settings))
  drain := drain
  close := close
  foldUntilStop := foldUntilStop

end Rehearsal

namespace Surroundings

/-- Surroundings in which nothing has happened. -/
def new (folder : Folder) (terminal : Option TypingTerminal) (random : RandomSource) : Surroundings :=
  ⟨folder, terminal, random, [], "", [], none, 0⟩

/-- The log, oldest first. -/
def log (s : Surroundings) : Log :=
  s.logged.reverse

/-- Does what a command line asks for. The answer comes with the number that the program exits with. -/
def perform (s : Surroundings) (words : List String) : Nat × Surroundings :=
  match CommandLine.parse words with
  | .error error => (error.exitCode, { s with printed := s.printed ++ error.printed })
  | .ok request =>
    (Rehearsal.host.run request).run s

end Surroundings

end UwbRanging
