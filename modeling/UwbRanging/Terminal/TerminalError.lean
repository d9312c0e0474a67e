import UwbRanging.Files.Fault

/-!
Why nothing could be drawn, or what ran behind the screen could not be reached.
-/

namespace UwbRanging

inductive TerminalError where
  /-- Drawing failed. -/
  | io (fault : IoFault)
  /-- What runs behind the screen was gone before it could be told to stop. -/
  | cannotStop
  /-- What runs behind the screen was gone before it handed over its result. -/
  | noResult
  /-- What runs behind the screen broke down. -/
  | workerFailed
  /-- There are no devices to select from. -/
  | noDevices
  deriving DecidableEq, Repr

def TerminalError.message : TerminalError → String
  | io fault => "terminal io failed: " ++ fault.message
  | cannotStop => "worker thread hung up"
  | noResult => "worker thread hung up: receiving on a closed channel"
  | workerFailed => "worker thread panicked"
  | noDevices => "no serial devices found"

end UwbRanging
