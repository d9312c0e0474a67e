import UwbRanging.Text.CellWidth

/-!
What a terminal shows: rows of text. Everything is drawn in one box that fills the terminal, with a title in
its upper border and instructions in its lower one.
-/

namespace UwbRanging.Terminal

open Text

structure Size where
  columns : Nat
  rows : Nat
  deriving DecidableEq, Repr

/-- The rows from top to bottom. -/
abbrev Screen :=
  List String

/-- A border with a label in its middle. Where it cannot be quite in the middle, the longer part of the
border is on the right. -/
def border (left right : Char) (columns : Nat) (label : String) : String :=
  let label := fitCells (columns - 2) label.toList
  let line := columns - 2 - textWidth label
  String.ofList (left :: List.replicate (line / 2) '─' ++ label ++ List.replicate (line - line / 2) '─'
    ++ [right])

/-- The rows inside the box of a terminal. -/
def Size.innerRows (size : Size) : Nat :=
  size.rows - 2

/-- Lines in a box. What does not fit is cut off at the right and at the bottom. -/
def Screen.box (size : Size) (title instructions : String) (lines : List String) : Screen :=
  let blank := List.replicate (size.innerRows - lines.length) ""
  let rows := (lines.take size.innerRows ++ blank).map fun line =>
    String.ofList ('│' :: fillCells (size.columns - 2) line.toList ++ ['│'])
  border '┌' '┐' size.columns title :: rows ++ [border '└' '┘' size.columns instructions]

end UwbRanging.Terminal
