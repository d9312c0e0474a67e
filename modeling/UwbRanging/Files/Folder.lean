import UwbRanging.Files.Fault
import UwbRanging.SortedMap

/-!
The folder that a program works in: named texts and consoles, and what a path leads to. The folder has no
folders in it, and paths that leave it find nothing.
-/

namespace UwbRanging

inductive FolderEntry where
  | text (content : String)
  /-- A console, with the bytes that arrive on it. -/
  | console (incoming : List UInt8)
  deriving DecidableEq

/-- What stands in the folder, by name. -/
abbrev Folder :=
  SortedMap String FolderEntry

/-- Where a path leads. -/
inductive Location where
  /-- To the folder itself or one that holds it. -/
  | folder
  /-- To the entry of that name, if there is one. -/
  | entry (name : String)
  /-- To the entry of that name, which a slash at the end of the path takes for a folder. -/
  | subfolder (name : String)
  /-- Beyond the entry of that name, as if it were a folder. -/
  | beyond (name : String)
  | outside
  deriving DecidableEq, Repr

namespace Location

/-- The parts of a path that name no entry. -/
def isStep (part : String) : Bool :=
  part = "" || part = "." || part = ".."

/-- Follows a path, whose parts stand between slashes. -/
def ofPath (path : String) : Location :=
  let parts := path.splitOn "/"
  match parts.dropWhile isStep with
  | [] => if path.isEmpty then outside else folder
  | name :: further =>
    if path.startsWith "/" || (parts.takeWhile isStep).contains ".." then outside
    else if further.isEmpty then entry name
    else if further.all (· = "") then subfolder name
    else beyond name

end Location

/-- The longest name, in bytes. -/
def longestName : Nat :=
  255

namespace Folder

/-- What is wrong with a name at which there is not what there ought to be. -/
def faultAt (f : Folder) (name : String) : IoFault :=
  if longestName < name.utf8ByteSize then .nameTooLong
  else if f.contains name then .notADirectory
  else .notFound

/-- The entry at a path. -/
def lookUp (f : Folder) (path : String) : Except IoFault FolderEntry :=
  match Location.ofPath path with
  | .folder => .error .isADirectory
  | .outside => .error .notFound
  | .subfolder name => .error (f.faultAt name)
  | .beyond name => .error (f.faultAt name)
  | .entry name =>
    match f.get? name with
    | some entry => .ok entry
    | none => .error (f.faultAt name)

/-- The text at a path. There is none to read on a console. -/
def readText (f : Folder) (path : String) : Except IoFault String := do
  match ← f.lookUp path with
  | .text content => return content
  | .console _ => return ""

/-- The bytes that arrive on the console at a path. -/
def openConsole (f : Folder) (path : String) : Except IoFault (List UInt8) := do
  match ← f.lookUp path with
  | .console incoming => return incoming
  | .text _ => throw .notATerminal

/-- Writes a text to a path, in the place of what is there. -/
def writeText (f : Folder) (path content : String) : Except IoFault Folder :=
  match Location.ofPath path with
  | .folder => .error .isADirectory
  | .outside => .error .notFound
  | .subfolder _ => .error .isADirectory
  | .beyond name => .error (f.faultAt name)
  | .entry name =>
    if longestName < name.utf8ByteSize then .error .nameTooLong
    else .ok (f.insert name (.text content))

end Folder

end UwbRanging
