/-!
What is logged while the program runs.
-/

namespace UwbRanging

inductive LogLevel where
  | error
  | warn
  | info
  | debug
  | trace
  deriving DecidableEq, Repr

namespace LogLevel

def name : LogLevel → String
  | error => "ERROR"
  | warn => "WARN"
  | info => "INFO"
  | debug => "DEBUG"
  | trace => "TRACE"

/-- The more severe a level, the smaller. -/
def rank : LogLevel → Nat
  | error => 0
  | warn => 1
  | info => 2
  | debug => 3
  | trace => 4

/-- Reads a name, ASCII letters of either case. -/
def parse? (s : String) : Option LogLevel :=
  [error, warn, info, debug, trace].find? fun l => l.name = s.map Char.toUpper

end LogLevel

/-- The part of the program that an entry comes from. -/
inductive LogTarget where
  | program
  | collector
  | outlier
  | aggregation
  | simulation
  deriving DecidableEq, Repr

def LogTarget.name : LogTarget → String
  | program => "uwbtestbed"
  | collector => "uwbtestbed::collector"
  | outlier => "uwbtestbed::outlier"
  | aggregation => "uwbtestbed::aggregation"
  | simulation => "uwbtestbed::synthetic_source"

structure LogEntry where
  level : LogLevel
  target : LogTarget
  text : String
  deriving DecidableEq, Repr

abbrev Log :=
  List LogEntry

namespace LogEntry

/-- Level, target and text. -/
def render (e : LogEntry) : String :=
  e.level.name ++ " " ++ e.target.name ++ " " ++ e.text

end LogEntry

/-- The entries that are at least as severe as a level. -/
def Log.upTo (log : Log) (level : LogLevel) : Log :=
  log.filter fun e => e.level.rank ≤ level.rank

end UwbRanging
