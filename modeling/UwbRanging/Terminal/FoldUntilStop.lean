import UwbRanging.Terminal.TerminalError

/-!
A fold that runs behind a screen until a key is pressed. A worker applies a step to a value over and over and
after each step sends what there is to show; the foreground draws the latest of what was sent, and once a key
is pressed or drawing fails it tells the worker to stop. The worker looks for that between two steps, and then
hands its value over and ends. Worker and foreground share nothing but the three channels between them, and
their moves interleave in any way.
-/

namespace UwbRanging.Terminal

inductive Worker (α : Type) where
  /-- About to take a step. -/
  | working (value : α)
  /-- About to send what there is to show. -/
  | reporting (value : α)
  /-- About to look whether it has been told to stop. -/
  | looking (value : α)
  /-- Told to stop, and about to hand its value over. -/
  | handingOver (value : α)
  | leaving
  | ended
  deriving DecidableEq

inductive Foreground (α : Type) where
  /-- Takes what was sent to be shown until there is nothing left. -/
  | taking
  /-- About to draw a frame. -/
  | drawing
  /-- Waits a moment for a key. -/
  | polling
  /-- About to tell the worker to stop; `drawn` is how drawing ended. -/
  | stopping (drawn : Except TerminalError Unit)
  /-- Waits for the value of the worker. -/
  | receiving (drawn : Except TerminalError Unit)
  /-- Waits for the worker to end. -/
  | joining (drawn : Except TerminalError Unit) (value : α)
  | returned (drawn : Except TerminalError Unit) (value : α)

/-- The state of a fold and its channels. -/
structure FoldState (α : Type) where
  worker : Worker α
  foreground : Foreground α
  /-- What was sent to be shown and not taken yet, oldest first. -/
  statuses : List (List String)
  /-- Whether the worker has been told to stop and has not noticed. -/
  stop : Bool
  /-- What the worker handed over and was not taken yet, oldest first. -/
  handedOver : List α
  /-- What the next frame shows if nothing more is taken. -/
  shown : List String
  /-- All frames, latest first. -/
  frames : List (List String)

inductive FoldMove where
  /-- The worker takes a step. -/
  | work
  /-- The worker sends what there is to show. -/
  | report
  /-- The worker looks whether it has been told to stop. -/
  | look
  /-- The worker hands its value over. -/
  | handOver
  /-- The worker ends. -/
  | finish
  /-- The foreground takes the oldest of what was sent to be shown, if there is any. -/
  | take
  /-- The foreground draws a frame. -/
  | draw
  /-- No key is pressed while the foreground waits for one. -/
  | idle
  /-- A key is pressed. -/
  | key
  /-- The screen fails while it is entered, drawn on, asked for a key or left. -/
  | drawingFails (error : TerminalError)
  /-- The foreground tells the worker to stop. -/
  | tell
  /-- The foreground takes the value that was handed over. -/
  | receive
  /-- The foreground returns, now that the worker has ended. -/
  | join
  deriving DecidableEq, Repr

namespace FoldState

variable {α : Type}

/-- Nothing has happened, and `waiting` is shown. -/
def start (waiting : List String) (init : α) : FoldState α where
  worker := .working init
  foreground := .taking
  statuses := []
  stop := false
  handedOver := []
  shown := waiting
  frames := []

/-- The state after a move, if the move can be made. -/
def next? (step : α → α) (describe : α → List String) (s : FoldState α) : FoldMove → Option (FoldState α)
  | .work =>
    match s.worker with
    | .working value => some { s with worker := .reporting (step value) }
    | _ => none
  | .report =>
    match s.worker with
    | .reporting value => some { s with worker := .looking value, statuses := s.statuses ++ [describe value] }
    | _ => none
  | .look =>
    match s.worker with
    | .looking value =>
      if s.stop then some { s with worker := .handingOver value, stop := false }
      else some { s with worker := .working value }
    | _ => none
  | .handOver =>
    match s.worker with
    | .handingOver value => some { s with worker := .leaving, handedOver := s.handedOver ++ [value] }
    | _ => none
  | .finish =>
    match s.worker with
    | .leaving => some { s with worker := .ended }
    | _ => none
  | .take =>
    match s.foreground, s.statuses with
    | .taking, [] => some { s with foreground := .drawing }
    | .taking, status :: statuses => some { s with statuses, shown := status }
    | _, _ => none
  | .draw =>
    match s.foreground with
    | .drawing => some { s with foreground := .polling, frames := s.shown :: s.frames }
    | _ => none
  | .idle =>
    match s.foreground with
    | .polling => some { s with foreground := .taking }
    | _ => none
  | .key =>
    match s.foreground with
    | .polling => some { s with foreground := .stopping (.ok ()) }
    | _ => none
  | .drawingFails error =>
    match s.foreground with
    | .taking | .drawing | .polling | .stopping _ => some { s with foreground := .stopping (.error error) }
    | _ => none
  | .tell =>
    match s.foreground with
    | .stopping drawn => some { s with foreground := .receiving drawn, stop := true }
    | _ => none
  | .receive =>
    match s.foreground, s.handedOver with
    | .receiving drawn, value :: handedOver => some { s with foreground := .joining drawn value, handedOver }
    | _, _ => none
  | .join =>
    match s.foreground, s.worker with
    | .joining drawn value, .ended => some { s with foreground := .returned drawn value }
    | _, _ => none

/-- How drawing ended and the value of the fold, once it has returned. -/
def outcome? (s : FoldState α) : Option (Except TerminalError Unit × α) :=
  match s.foreground with
  | .returned drawn value => some (drawn, value)
  | _ => none

/-- What the fold returns: its value, or the error of the screen. -/
def result? (s : FoldState α) : Option (Except TerminalError α) :=
  s.outcome?.map fun (drawn, value) => drawn.map fun _ => value

/-- Makes the moves that `choose` decides on, at most `fuel` of them, until there is none. -/
def run (step : α → α) (describe : α → List String) (choose : FoldState α → FoldMove) :
    Nat → FoldState α → FoldState α
  | 0, s => s
  | fuel + 1, s =>
    match s.next? step describe (choose s) with
    | none => s
    | some s => run step describe choose fuel s

end FoldState

end UwbRanging.Terminal
