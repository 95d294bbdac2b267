import BreakpointProps.CommandLine.Count
import BreakpointProps.CommandLine.Help

/-!
What ends the reading of a command line before a command is known: a question about the program, or a
fault.
-/

namespace BreakpointProps.CommandLine

/-- What is wrong with a command line. -/
inductive UsageFault where
  | noCommand
  | unknownCommand (name : String)
  /-- Nothing takes this word. -/
  | unexpected (word : String)
  /-- A flag was given a value. -/
  | unexpectedValue (parameter : Parameter) (value : String)
  /-- A parameter was given again. -/
  | repeated (parameter : Parameter)
  | missingValue (parameter : Parameter)
  | badCount (parameter : Parameter) (value : String) (flaw : CountFlaw)
  /-- Parameters that are required were not given. -/
  | missing (parameters : List Parameter)
  deriving DecidableEq, Repr, Inhabited

def UsageFault.message : UsageFault → String
  | noCommand => programPurpose
  | unknownCommand name => "error: unrecognized subcommand '" ++ name ++ "'"
  | unexpected word => "error: unexpected argument '" ++ word ++ "' found"
  | unexpectedValue parameter value =>
    "error: unexpected value '" ++ value ++ "' for '" ++ parameter.shown
      ++ "' found; no more were expected"
  | repeated parameter => "error: the argument '" ++ parameter.shown ++ "' cannot be used multiple times"
  | missingValue parameter =>
    "error: a value is required for '" ++ parameter.shown ++ "' but none was supplied"
  | badCount parameter value flaw =>
    "error: invalid value '" ++ value ++ "' for '" ++ parameter.shown ++ "': " ++ flaw.message
  | missing _ => "error: the following required arguments were not provided:"

/-- What is printed for a fault: its message and where to find help. Without a command the page of the
program says more. -/
def UsageFault.text : UsageFault → String
  | noCommand => Topic.program.page
  | missing parameters =>
    UsageFault.message (missing parameters)
      ++ String.join (parameters.map fun parameter => "\n  " ++ parameter.shown)
      ++ "\n\nFor more information, try '--help'.\n"
  | fault => fault.message ++ "\n\nFor more information, try '--help'.\n"

/-- What ends the reading of a command line before a command is known. -/
inductive Stop where
  /-- A page was asked for. -/
  | page (topic : Topic)
  /-- The version was asked for. -/
  | version
  | fault (reason : UsageFault)
  deriving DecidableEq, Repr, Inhabited

def Stop.text : Stop → String
  | page topic => topic.page
  | version => programName ++ " " ++ programVersion ++ "\n"
  | fault reason => reason.text

end BreakpointProps.CommandLine
