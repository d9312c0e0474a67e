import UwbRanging.Config
import UwbRanging.Files.Folder
import UwbRanging.SavedText.Records

/-!
Saved values in files, and the file of settings, which have to be valid.
-/

namespace UwbRanging

open SavedText

inductive PersistError where
  /-- The file could not be opened, read or written. -/
  | io (fault : IoFault)
  /-- The text is not that of a value of the expected kind. -/
  | malformed
  deriving DecidableEq, Repr

def PersistError.message : PersistError → String
  | io fault => "io error: " ++ fault.message
  | malformed => "ron spanning error: "

/-- Reads a value from the text of a file. -/
def ofText {α : Type} [Saved α] (text : String) : Except PersistError α :=
  match parse text.toList with
  | some a => .ok a
  | none => .error .malformed

/-- The text of a file that holds a value. -/
def toText {α : Type} [Saved α] (a : α) : String :=
  String.ofList (render a)

namespace Folder

def load {α : Type} [Saved α] (f : Folder) (path : String) : Except PersistError α :=
  match f.readText path with
  | .ok text => ofText text
  | .error fault => .error (.io fault)

def save {α : Type} [Saved α] (f : Folder) (path : String) (a : α) : Except PersistError Folder :=
  match f.writeText path (toText a) with
  | .ok f => .ok f
  | .error fault => .error (.io fault)

end Folder

inductive ConfigError where
  | persist (error : PersistError)
  /-- A field lies outside its domain. -/
  | invalidValue (field : ConfigField)
  deriving DecidableEq, Repr

def ConfigError.message : ConfigError → String
  | persist error => "could not load config: " ++ error.message
  | invalidValue field => "invalid `" ++ field.name ++ "`: " ++ field.reason

namespace EvaluationConfig

/-- The settings, if every field lies in its domain. -/
def validate {α : Type} [Arith α] (c : EvaluationConfig α) : Except ConfigError (EvaluationConfig α) :=
  match c.firstInvalid? with
  | some field => .error (.invalidValue field)
  | none => .ok c

/-- Valid settings from the text of a file. -/
def ofText (text : String) : Except ConfigError (EvaluationConfig Float) :=
  match UwbRanging.ofText text with
  | .ok c => validate c
  | .error error => .error (.persist error)

/-- Valid settings from a file. -/
def load (f : Folder) (path : String) : Except ConfigError (EvaluationConfig Float) :=
  match f.readText path with
  | .ok text => ofText text
  | .error fault => .error (.persist (.io fault))

end EvaluationConfig

end UwbRanging
