import UwbRanging.CommandLine.Options

/-!
The help on the command line, and how the program exits when it is not asked to do anything.
-/

namespace UwbRanging

open CommandLine

namespace TaskName

def about : TaskName → String
  | collect => "Record telemetry from testbed nodes until a key is pressed"
  | evaluate => "Filter and summarise a recorded run"
  | range => "Estimate the distance of a single DS-TWR exchange"

end TaskName

namespace CommandLine

/-- An entry of a list: a name, filled to the width of the column, and what it means. -/
def helpLine (width : Nat) (entry : String × String) : String :=
  "  " ++ entry.1 ++ String.ofList (List.replicate (width + 2 - entry.1.length) ' ') ++ entry.2 ++ "\n"

/-- Entries one below the other under a heading. -/
def helpList (heading : String) (entries : List (String × String)) : String :=
  let width := (entries.map fun e => e.1.length).foldl max 0
  "\n" ++ heading ++ ":\n" ++ String.join (entries.map (helpLine width))

def configHelp : String × String :=
  ("-c, --config <CONFIG>", "RON file with evaluation settings; flags given here override it")

def helpHelp : String × String :=
  ("-h, --help", "Print help")

/-- The options in the help on a task. -/
def optionHelp : TaskName → List (String × String)
  | .collect =>
    [configHelp,
      ("-p, --port <PORTS>...", "Serial ports the nodes are attached to. Shows a device selector if neither "
        ++ "this nor --synthetic is given"),
      ("-b, --baud <BAUD>", "Baud rate of the serial ports [default: 115200]"),
      ("-s, --synthetic <SYNTHETIC>", "Simulate this many nodes instead of reading from hardware"),
      ("-o, --out <OUTFILE>", "Filename for the collected run to be written to"), helpHelp]
  | .evaluate =>
    [configHelp, ("-i, --in <INFILE>", "A run written by `collect`"),
      ("-t, --threshold <THRESHOLD>", "Outlier threshold, distance from the series median"),
      ("    --confidence <CONFIDENCE>", "Confidence level of the reported intervals, e.g. 0.95"),
      ("-m, --min-count <MIN_COUNT>", "Leave out pairs with fewer measurements than this"),
      ("-g, --ground-truth <GROUND_TRUTH>", "True distance between the nodes, in the range unit"),
      ("-o, --out <OUTFILE>", "Filename for the report to be written to, as RON"), helpHelp]
  | .range =>
    [configHelp,
      ("-e, --estimator <ESTIMATOR>", "Estimator to use: asymmetric or drift-compensated [default: asymmetric]"),
      ("-u, --unit <UNIT>", "Unit to print the distance in: tu, cm or m [default: m]"), helpHelp]

/-- The words after the name of the task. -/
def usage : TaskName → String
  | .collect => "[OPTIONS] --out <OUTFILE>"
  | .evaluate => "[OPTIONS] --in <INFILE>"
  | .range => "[OPTIONS] <TIMESTAMPS> <TIMESTAMPS> <TIMESTAMPS> <TIMESTAMPS> <TIMESTAMPS> <TIMESTAMPS>"

/-- The help on a task, or on all of them. -/
def helpText : Option TaskName → String
  | none =>
    "Usage: uwbtestbed [OPTIONS] <COMMAND>\n"
      ++ helpList "Commands" (TaskName.all.map (fun t => (t.name, t.about))
        ++ [("help", "Print this message or the help of the given subcommand(s)")])
      ++ helpList "Options" [configHelp, helpHelp, ("-V, --version", "Print version")]
  | some t =>
    let arguments := if t = .range then helpList "Arguments"
      [("<TIMESTAMPS> <TIMESTAMPS> <TIMESTAMPS> <TIMESTAMPS> <TIMESTAMPS> <TIMESTAMPS>",
        "The six timestamps t_a1 r_b1 t_b1 r_a1 t_a2 r_b2, in radio ticks")] else ""
    t.about ++ "\n\nUsage: uwbtestbed " ++ t.name ++ " " ++ usage t ++ "\n" ++ arguments
      ++ helpList "Options" (optionHelp t)

end CommandLine

namespace ArgError

/-- Help and version are answers, all else is a fault of the command line. -/
def exitCode : ArgError → Nat
  | help _ | version => 0
  | _ => 2

/-- What is printed in the place of a task. -/
def printed : ArgError → String
  | help task => helpText task
  | version => "uwb-testbed 0.1.0\n"
  | _ => ""

/-- What is wrong with the command line. -/
def message : ArgError → String
  | unknownArgument => "unexpected argument found"
  | unknownTask => "unrecognized subcommand"
  | missingTask => "a subcommand is required but one was not provided"
  | empty => "nothing is asked for"
  | invalidValue => "a value is required but none was supplied"
  | valueValidation => "invalid value"
  | wrongNumberOfValues => "wrong number of values"
  | tooManyValues => "unexpected value"
  | conflict => "an argument cannot be used with another or more than once"
  | missingRequired => "a required argument was not provided"
  | help _ | version => ""

end ArgError

end UwbRanging
