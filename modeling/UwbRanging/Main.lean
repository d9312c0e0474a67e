import UwbRanging.Collection.SerialSource
import UwbRanging.CommandLine.Help
import UwbRanging.CommandLine.Parse
import UwbRanging.Program.Run
import UwbRanging.Terminal.DeviceSelector

/-!
The command line program. Its surroundings are those of the system: files, consoles that are read in the
background, and a terminal whose keys arrive once a line of them is complete. The log goes to standard error,
at the level that the variable `UWB_LOG` names.
-/

namespace UwbRanging.Main

open Terminal

/-- The reason for an error of the system, by its number. -/
def faultOf : IO.Error → IoFault
  | .noFileOrDirectory _ _ _ => .notFound
  | .noSuchThing _ 6 _ => .noSuchDevice
  | .inappropriateType _ 20 _ => .notADirectory
  | .inappropriateType _ 21 _ => .isADirectory
  | .inappropriateType _ 25 _ => .notATerminal
  | e => .other (toString e)

def attempt {α : Type} (act : IO α) : IO (Except IoFault α) := do
  try return .ok (← act)
  catch e => return .error (faultOf e)

/-- A source of lines that is fed in the background or, if it is simulated, when it is polled. -/
inductive LiveSource where
  | serial (source : IO.Ref SerialSource)
  | simulated (testbed : IO.Ref (SimulatedTestbed × RandomSource))

/-- Reads a port until there is nothing more to come or the source has stopped. -/
partial def readPort (source : IO.Ref SerialSource) (port : String) (handle : IO.FS.Handle) : IO Unit := do
  let bytes ← handle.read 256
  source.modify fun s => s.receive port bytes.toList
  if bytes.isEmpty || !(← source.get).running then return
  readPort source port handle

/-- Opens ports at the speed that the system has set for them. -/
def openPorts (ports : List String) : IO (Except SourceError LiveSource) := do
  let mut opened := []
  for port in ports do
    match ← attempt (IO.FS.Handle.mk port .read) with
    | .ok handle => opened := (port, handle) :: opened
    | .error fault => return .error (.cannotOpen port fault)
  let source ← IO.mkRef (⟨ports.map PortReader.new, [], true⟩ : SerialSource)
  for (port, handle) in opened do
    let _ ← IO.asTask (readPort source port handle) .dedicated
  return .ok (.serial source)

def startSimulation (settings : SimulationSettings) : IO LiveSource := do
  let seed ← IO.rand 0 UInt32.size
  return .simulated (← IO.mkRef ((SimulatedTestbed.start settings).run (.ofSeed (UInt64.ofNat seed))))

def drain : LiveSource → IO (List StreamLine × LiveSource)
  | .serial source => do
    let lines ← source.modifyGet SerialSource.drain
    return (lines, .serial source)
  | .simulated testbed => do
    let lines ← testbed.modifyGet fun (t, random) =>
      let (t, random) := t.proceed random
      let (lines, t) := t.drain
      (lines, t, random)
    return (lines, .simulated testbed)

def close : LiveSource → IO Unit
  | .serial source => source.modify SerialSource.stop
  | .simulated testbed => testbed.modify fun (t, random) => (t.stop, random)

/-- The size of the terminal, as far as it is known. -/
def terminalSize : Size :=
  ⟨80, 24⟩

/-- Draws a screen over the one before. -/
def draw (screen : Screen) : IO Unit := do
  let out ← IO.getStdout
  out.putStr ("\x1b[H\x1b[2J" ++ "\n".intercalate screen)
  out.flush

def hasTerminal : IO Bool := do
  return (← (← IO.getStdin).isTty) && (← (← IO.getStdout).isTty)

/-- Steps and draws until a line has been typed. -/
partial def foldUntilTyped {τ : Type} (title : String) (typed : Task (Except IO.Error String)) (value : τ)
    (step : τ → IO τ) (describe : τ → List String) : IO τ := do
  let value ← step value
  draw (.box terminalSize (" " ++ title ++ " ") " Press any key to stop " (describe value))
  IO.sleep 50
  if ← IO.hasFinished typed then return value
  foldUntilTyped title typed value step describe

def foldUntilStop {τ : Type} (title : String) (waiting : List String) (init : τ) (step : τ → IO τ)
    (describe : τ → List String) : IO (Except TerminalError Unit × τ) := do
  if !(← hasTerminal) then return (.error (.io .noSuchDevice), init)
  draw (.box terminalSize (" " ++ title ++ " ") " Press any key to stop " waiting)
  let typed ← IO.asTask (do (← IO.getStdin).getLine) .dedicated
  return (.ok (), ← foldUntilTyped title typed init step describe)

/-- Lets the user select ports with lines of keys, at whose ends stands the key that chooses. -/
def selectPorts (ports : List String) : IO (Except TerminalError (List String)) := do
  if !(← hasTerminal) then return .error (.io .noSuchDevice)
  let selector := DeviceSelector.new ports
  draw (selector.screen terminalSize 0)
  let line ← (← IO.getStdin).getLine
  match selector.run terminalSize 0 (typedKeys (line.map fun c => if c = '\n' then '\r' else c)) with
  | some (selection, _) => return .ok selection
  | none => return .ok []

/-- The paths that serial ports usually have. -/
def usualPorts : List String :=
  ["/dev/ttyUSB", "/dev/ttyACM"].flatMap fun path => (List.range 8).map fun n => path ++ toString n

def presentPorts : IO (List String) :=
  usualPorts.filterM fun port => do
    return (← attempt (IO.FS.Handle.mk port .read)).isOk

def logUpTo (level : LogLevel) (entry : LogEntry) : IO Unit :=
  if entry.level.rank ≤ level.rank then IO.eprintln ("[" ++ entry.render ++ "]") else return

def host (level : LogLevel) : Host IO LiveSource where
  readText path := attempt (IO.FS.readFile path)
  writeText path content := attempt (IO.FS.writeFile path content)
  print text := IO.print text
  log := logUpTo level
  presentPorts := presentPorts
  selectPorts := selectPorts
  openPorts ports _ := openPorts ports
  startSimulation := startSimulation
  drain := drain
  close := close
  foldUntilStop := foldUntilStop

def run (words : List String) : IO UInt32 := do
  match CommandLine.parse words with
  | .error error => do
    IO.print error.printed
    if error.exitCode != 0 then IO.eprintln ("error: " ++ error.message)
    return UInt32.ofNat error.exitCode
  | .ok request => do
    let level := ((← IO.getEnv "UWB_LOG").bind LogLevel.parse?).getD .error
    return UInt32.ofNat (← (host level).run request)

end UwbRanging.Main

def main (words : List String) : IO UInt32 :=
  UwbRanging.Main.run words
