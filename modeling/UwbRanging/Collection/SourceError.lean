import UwbRanging.Files.Fault

/-!
Why there is no source of lines.
-/

namespace UwbRanging

inductive SourceError where
  | noPorts
  | cannotOpen (port : String) (fault : IoFault)
  /-- Listing the ports or talking to one failed. -/
  | io (fault : IoFault)
  | stopped
  deriving DecidableEq, Repr

def SourceError.message : SourceError → String
  | noPorts => "no serial port given"
  | cannotOpen port fault => "could not open " ++ port ++ ": " ++ fault.message
  | io fault => "serial io failed: " ++ fault.message
  | stopped => "the source has already stopped"

end UwbRanging
