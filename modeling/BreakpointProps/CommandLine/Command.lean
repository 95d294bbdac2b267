import BreakpointProps.Build.Request
import BreakpointProps.CommandLine.Reading

/-!
The command that a command line stands for.
-/

namespace BreakpointProps

/-- What the rewriting of one module is asked for. -/
structure TransformRequest where
  moduleId : String
  /-- Where the source map goes. -/
  sourceMap : Option Path := none
  /-- Is the result to be written as JSON? -/
  asJson : Bool := false
  config : Option Path := none
  deriving DecidableEq, Repr, Inhabited

/-- Which registration is asked for. -/
structure PluginRequest where
  /-- The text that names the bundler. -/
  target : String
  config : Option Path := none
  deriving DecidableEq, Repr, Inhabited

/-- A command with all that is given for it. -/
inductive Command where
  | transform (request : TransformRequest)
  | build (request : BuildRequest)
  | plugin (request : PluginRequest)
  deriving DecidableEq, Repr, Inhabited

namespace CommandLine

def Subcommand.command (subcommand : Subcommand) (given : Given) : Command :=
  match subcommand with
  | transform => .transform {
      moduleId := (given.value? .moduleId).getD (Parameter.moduleId.form.standard.getD "")
      sourceMap := given.path? .sourceMap
      asJson := given.has .json
      config := given.path? .config }
  | build => .build {
      input := given.values .input
      exclude := given.values .exclude
      outDirectory := ⟨(given.value? .outDirectory).getD ""⟩
      report := given.path? .report
      config := given.path? .config
      verbose := given.has .verbose
      jobs := given.count? .jobs
      dryRun := given.has .dryRun }
  | plugin => .plugin {
      target := (given.value? .target).getD ""
      config := given.path? .config }

def Topic.ofName? (name : String) : Option Topic :=
  if name == helpName then some help else (Subcommand.ofName? name).map Topic.command

/-- What the words behind the command that explains the others ask for. Commands have no commands of
their own. -/
def explain : List String → Stop
  | [] => .page .program
  | name :: names =>
    match Topic.ofName? name, names with
    | none, _ => .fault (.unknownCommand name)
    | some topic, [] => .page topic
    | some _, next :: _ => .fault (.unknownCommand next)

/-- What a word with hyphens before the name of a command asks for. -/
def question : Word → String → Stop
  | .long "help" none, _ => .page .program
  | .long "version" none, _ => .version
  | .long "help" (some value), _ => .fault (.unexpectedValue .help value)
  | .long "version" (some value), _ => .fault (.unexpectedValue .version value)
  | .long name _, _ => .fault (.unexpected ("--" ++ name))
  | .short ('h' :: _), _ => .page .program
  | .short ('V' :: _), _ => .version
  | .short (letter :: _), _ => .fault (.unexpected ("-" ++ String.singleton letter))
  | _, word => .fault (.unknownCommand word)

end CommandLine

namespace Command

open CommandLine

/-- The command that a command line stands for. Two hyphens alone before the name of a command leave
that name without a meaning. -/
def ofWords : List String → Except Stop Command
  | [] => .error (.fault .noCommand)
  | word :: words =>
    match Topic.ofName? word with
    | some (.command subcommand) => return subcommand.command (← Given.ofWords subcommand words)
    | some _ => .error (explain words)
    | none =>
      match Word.ofText word, words with
      | .separator, [] => .error (.fault .noCommand)
      | .separator, next :: _ =>
        if (Topic.ofName? next).isSome then .error (.fault (.unexpected next))
        else .error (.fault (.unknownCommand next))
      | shape, _ => .error (question shape word)

end Command

end BreakpointProps
