/-!
Why the system refuses to open a file or a device, to read from it, or to draw on it.
-/

namespace UwbRanging

inductive IoFault where
  | notFound
  /-- There is no device behind the name, such as a terminal where none is attached. -/
  | noSuchDevice
  /-- A file stands where a directory is needed. -/
  | notADirectory
  | isADirectory
  /-- The file is no console. -/
  | notATerminal
  | nameTooLong
  /-- Any other reason, in the words of the system. -/
  | other (text : String)
  deriving DecidableEq, Repr

def IoFault.message : IoFault → String
  | notFound => "No such file or directory (os error 2)"
  | noSuchDevice => "No such device or address (os error 6)"
  | notADirectory => "Not a directory (os error 20)"
  | isADirectory => "Is a directory (os error 21)"
  | notATerminal => "Inappropriate ioctl for device (os error 25)"
  | nameTooLong => "File name too long (os error 36)"
  | other text => text

end UwbRanging
