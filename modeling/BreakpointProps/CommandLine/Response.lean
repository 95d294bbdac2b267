import BreakpointProps.Build
import BreakpointProps.Bundler
import BreakpointProps.CommandLine.Command

/-!
What the program does for a command line: what it prints, which files it leaves, and how it ends.
-/

namespace BreakpointProps

/-- What a run of the program finds. -/
structure Surroundings where
  files : FileSystem
  /-- What can be read from the standard input. -/
  input : ByteArray
  mode : Mode
  clock : BuildClock
  deriving Inhabited

/-- A result as the bundlers read it. -/
def Rewrite.Output.toJson (output : Rewrite.Output) : Json :=
  .object [("code", .string output.code), ("map", output.map.elim .null Json.string)]

/-- The registration with the bundler that a text names, under the settings in a file if there is
one. The name counts before the settings. -/
def Bundler.describe (files : FileSystem) (mode : Mode) (name : String) (config : Option Path) :
    Except Failure String := do
  let some bundler := Bundler.ofText? name | .error (.unknownBundler name)
  let config ← (Config.load files mode config).mapError .config
  return (bundler.registration config).normalized.pretty

namespace TransformRequest

/-- What is printed for a result: the result itself, or the source that stands for itself. -/
def rendered (request : TransformRequest) (source : String) (result : Option Rewrite.Output) : String :=
  if request.asJson then (result.elim .null Rewrite.Output.toJson).compact
  else result.elim source fun output => output.code

/-- Rewrite the module that is read from the standard input. -/
def run (request : TransformRequest) (surroundings : Surroundings) : FileSystem × Except Failure String :=
  let files := surroundings.files
  match Config.load files surroundings.mode request.config with
  | .error fault => (files, .error (.config fault))
  | .ok config =>
    match String.fromUTF8? surroundings.input with
    | none => (files, .error (.input .notText))
    | some source =>
      let result := (Rewrite.hook config request.moduleId source).result
      let (files, written) :=
        match request.sourceMap, result.bind fun output => output.map with
        | some path, some map => files.writeOutput path map
        | _, _ => (files, .ok ())
      (files, written.map fun () => request.rendered source result)

end TransformRequest

def BuildResult.summary (result : BuildResult) : String :=
  "Build successful!\n  - Processed " ++ toString result.processed ++ " files\n  - Rewrote "
    ++ toString result.rewritten ++ " files (" ++ toString result.elements ++ " elements)\n"

/-- A message with all its lines shifted. The first line has its own beginning. -/
def Failure.indented (first later message : String) : String :=
  first ++ String.intercalate ("\n" ++ later) (message.splitOn "\n")

/-- What is printed for a failure: what was tried, and what stands behind it, with numbers if there is
more than one cause. -/
def Failure.report (failure : Failure) (attempt : String) : String :=
  let causes := match failure.source? with
    | none => indented "    " "    " failure.message
    | some source =>
      indented "    0: " "       " failure.message ++ "\n" ++ indented "    1: " "       " source
  "Error: " ++ attempt ++ "\n\nCaused by:\n" ++ causes ++ "\n"

namespace Command

/-- What is said to have failed if a command fails. -/
def attempt : Command → String
  | transform _ => "transform failed"
  | build _ => "build failed"
  | plugin _ => "plugin lookup failed"

/-- Carry out a command: the files after it, and what it prints. -/
def run (command : Command) (surroundings : Surroundings) : FileSystem × Except Failure String :=
  match command with
  | transform request => request.run surroundings
  | build request =>
    let outcome := request.run surroundings.clock surroundings.mode surroundings.files
    (outcome.files, outcome.returned.map BuildResult.summary)
  | plugin request =>
    (surroundings.files,
      (Bundler.describe surroundings.files surroundings.mode request.target request.config).map
        fun registration => registration ++ "\n")

end Command

/-- What a run of the program comes to. -/
structure Response where
  /-- Zero if all is well, one after a failure, two if the command line makes no sense. -/
  code : UInt8
  output : String := ""
  /-- What is printed for the user alone. -/
  complaint : String := ""
  files : FileSystem
  deriving Inhabited

namespace Response

/-- What is printed if there is no command. -/
def ofStop (files : FileSystem) : CommandLine.Stop → Response
  | .fault fault => { code := 2, complaint := fault.text, files }
  | stop => { code := 0, output := stop.text, files }

/-- What becomes of a command. -/
def ofCommand (surroundings : Surroundings) (command : Command) : Response :=
  match command.run surroundings with
  | (files, .ok output) => { code := 0, output, files }
  | (files, .error failure) => { code := 1, complaint := failure.report command.attempt, files }

/-- What the program does for a command line. -/
def ofWords (surroundings : Surroundings) (words : List String) : Response :=
  match Command.ofWords words with
  | .error stop => ofStop surroundings.files stop
  | .ok command => ofCommand surroundings command

end Response

end BreakpointProps
