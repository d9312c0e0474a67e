import UwbRanging.Collection.SourceError
import UwbRanging.Collection.StreamLine
import UwbRanging.Log
import UwbRanging.Simulation.Testbed
import UwbRanging.Terminal.TerminalError

/-!
What the program needs of its surroundings: files, a log, ports and a terminal. The program is written once for
all surroundings that offer these.
-/

namespace UwbRanging

/-- Surroundings whose effects are in `m` and whose sources of lines are of type `σ`. -/
structure Host (m : Type → Type) (σ : Type) where
  readText : String → m (Except IoFault String)
  writeText : String → String → m (Except IoFault Unit)
  /-- Prints a text as it is. -/
  print : String → m Unit
  log : LogEntry → m Unit
  /-- The serial ports that there are. -/
  presentPorts : m (List String)
  /-- Lets the user select from a list that is not empty. -/
  selectPorts : List String → m (Except TerminalError (List String))
  openPorts : List String → UInt32 → m (Except SourceError σ)
  startSimulation : SimulationSettings → m σ
  /-- Takes every line that is there. -/
  drain : σ → m (List StreamLine × σ)
  /-- Stops a source for good. -/
  close : σ → m Unit
  /-- Repeats a step behind a screen with the given title until a key is pressed, as `FoldState` says. Comes
  with how drawing ended. -/
  foldUntilStop {τ : Type} (title : String) (waiting : List String) (init : τ) (step : τ → m τ)
    (describe : τ → List String) : m (Except TerminalError Unit × τ)

end UwbRanging
