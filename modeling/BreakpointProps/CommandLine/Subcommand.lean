import BreakpointProps.CommandLine.Parameter

/-!
The commands by name, with the parameters of each.
-/

namespace BreakpointProps.CommandLine

def programName : String := "breezy-css"

def programVersion : String := "0.2.0"

/-- What the program is for. -/
def programPurpose : String :=
  "Responsive breakpoint props (sm, md, lg, xl, xxl) rewritten into Tailwind className tokens"

inductive Subcommand where
  | transform
  | build
  | plugin
  deriving DecidableEq, Repr, Inhabited

namespace Subcommand

def all : List Subcommand := [transform, build, plugin]

def name : Subcommand → String
  | transform => "transform"
  | build => "build"
  | plugin => "plugin"

def purpose : Subcommand → String
  | transform => "Rewrite one module read from stdin and write the result to stdout"
  | build => "Rewrite every matching source file into an output directory"
  | plugin => "Print the plugin registration for a bundler"

def parameters : Subcommand → List Parameter
  | transform => [.moduleId, .sourceMap, .json, .config, .help]
  | build =>
    [.input, .exclude, .outDirectory, .report, .config, .verbose, .jobs, .dryRun, .help]
  | plugin => [.target, .config, .help]

def ofName? (name : String) : Option Subcommand := all.find? fun command => command.name == name

/-- The parameters that are given by position, in order. -/
def positional (command : Subcommand) : List Parameter :=
  command.parameters.filter fun parameter => parameter.form.long.isNone

def named (command : Subcommand) : List Parameter :=
  command.parameters.filter fun parameter => parameter.form.long.isSome

/-- The parameters that have to be given. -/
def required (command : Subcommand) : List Parameter :=
  command.parameters.filter fun parameter => parameter.form.isRequired

def ofLong? (command : Subcommand) (long : String) : Option Parameter :=
  command.parameters.find? fun parameter => parameter.form.long == some long

def ofShort? (command : Subcommand) (short : Char) : Option Parameter :=
  command.parameters.find? fun parameter => parameter.form.short == some short

end Subcommand

/-- The name of the command that explains the others. -/
def helpName : String := "help"

/-- What that command is for. -/
def helpPurpose : String := "Print this message or the help of the given subcommand(s)"

end BreakpointProps.CommandLine
