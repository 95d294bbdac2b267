import BreakpointProps.Failure
import BreakpointProps.FileSystem.Change
import BreakpointProps.Report
import BreakpointProps.Rewrite.Module

/-!
One file of a build: it is read, rewritten and written below the directory for results.
-/

namespace BreakpointProps

/-- What holds for all files of a build. -/
structure BuildSettings where
  config : Config
  policy : Policy
  outDirectory : Path
  dryRun : Bool
  deriving Inhabited

/-- What is made of a file. -/
structure BuildProduct where
  output : Path
  /-- The rewritten text, or the text as it was. -/
  text : String
  map : Option (Path × String)
  /-- The outcome if the writing goes well. -/
  outcome : FileOutcome
  entries : List LogEntry
  deriving Inhabited

/-- Write a text into a file after the directories that it stands in. -/
def FileSystem.writeOutput (files : FileSystem) (path : Path) (text : String) :
    FileSystem × Except Failure Unit :=
  let (files, made) :=
    match path.parent? with
    | some parent => files.makeDirectories parent
    | none => (files, .ok ())
  match made with
  | .error fault => (files, .error (.files fault))
  | .ok () =>
    let (files, written) := files.writeAtomic path text
    (files, written.mapError (.output path))

namespace BuildProduct

/-- What is made of a text that stands in the file at a path. -/
def ofText (settings : BuildSettings) (path : Path) (text : String) : BuildProduct :=
  let hook := Rewrite.hook settings.config path.text text
  let output := path.outputFor settings.outDirectory settings.policy.workingDirectory
  let map := hook.result.bind fun rewritten => rewritten.map.map fun map => (output.sidecar, map)
  { output
    text := hook.result.elim text fun rewritten => rewritten.code
    map
    outcome := {
      rewritten := hook.result.isSome
      elements := hook.result.elim 0 fun rewritten => rewritten.elements
      output := some output.text
      map := map.map fun (path, _) => path.text }
    entries := hook.entries }

/-- Write what was made: the text, and its source map after it. -/
def write (product : BuildProduct) (files : FileSystem) : FileSystem × Except Failure Unit :=
  match files.writeOutput product.output product.text, product.map with
  | (files, .ok ()), some (path, map) => files.writeOutput path map
  | result, _ => result

end BuildProduct

namespace BuildSettings

/-- Work on the file at a path. What cannot be read or written is noted in the outcome. -/
def process (settings : BuildSettings) (files : FileSystem) (path : Path) :
    FileSystem × FileOutcome × List LogEntry :=
  let warning (message : String) : LogEntry := ⟨.warn, message, [("file", path.text)]⟩
  match files.readText path with
  | .error fault =>
    (files, { error := some fault.message }, [warning ("Skipping unreadable file: " ++ fault.message)])
  | .ok text =>
    let product := BuildProduct.ofText settings path text
    if settings.dryRun then (files, product.outcome, product.entries)
    else
      match product.write files with
      | (files, .ok ()) => (files, product.outcome, product.entries)
      | (files, .error failure) =>
        (files, { product.outcome with error := some failure.message },
          product.entries ++ [warning ("Failed to write output: " ++ failure.message)])

/-- Work on files one after the other. -/
def processAll (settings : BuildSettings) (files : FileSystem) :
    List Path → FileSystem × List (String × FileOutcome) × List LogEntry
  | [] => (files, [], [])
  | path :: rest =>
    let (files, outcome, entries) := settings.process files path
    let (files, outcomes, later) := processAll settings files rest
    (files, (path.text, outcome) :: outcomes, entries ++ later)

end BuildSettings

end BreakpointProps
