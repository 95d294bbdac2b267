import BreakpointProps.Build.File
import BreakpointProps.Build.Selection
import BreakpointProps.Report.Json

/-!
A build: files are selected, each is rewritten into the directory for results, and a report tells what
became of them.
-/

namespace BreakpointProps

/-- When a build takes place, and how long it takes in milliseconds. -/
structure BuildClock where
  start : Timestamp
  elapsed : Nat
  deriving Inhabited

/-- What a build comes to: the files after it, what was reported on the way, and the report if it got
that far. -/
structure BuildOutcome where
  files : FileSystem
  entries : List LogEntry
  result : Except Failure Report

/-- What a build gives back: its report, and beside it the counts that the user is told. -/
structure BuildResult where
  report : Report
  processed : Nat
  rewritten : Nat
  elements : Nat
  deriving DecidableEq, Repr, Inhabited

def BuildResult.ofReport (report : Report) : BuildResult where
  report
  processed := report.processed
  rewritten := report.rewritten
  elements := report.elements

/-- What a build gives back if it got as far as its report. -/
def BuildOutcome.returned (outcome : BuildOutcome) : Except Failure BuildResult :=
  outcome.result.map .ofReport

namespace BuildRequest

/-- What holds for all files of a build. -/
def settings (request : BuildRequest) (config : Config) (policy : Policy) : BuildSettings :=
  ⟨config, policy, request.outDirectory, request.dryRun⟩

/-- What speaks against the places for results. -/
def outputViolation? (request : BuildRequest) (files : FileSystem) (policy : Policy) : Option Violation :=
  (policy.outputViolation? files request.outDirectory).or
    (request.report.bind (policy.outputViolation? files))

def writeReport (request : BuildRequest) (files : FileSystem) (report : Report) :
    FileSystem × Except Failure Unit :=
  match request.report with
  | some path =>
    if request.dryRun then (files, .ok ())
    else
      let (files, written) := files.writeAtomic path report.text
      (files, written.mapError (.output path))
  | none => (files, .ok ())

def runWith (request : BuildRequest) (clock : BuildClock) (config : Config) (policy : Policy)
    (files : FileSystem) : BuildOutcome :=
  match request.outputViolation? files policy with
  | some violation => ⟨files, [], .error (.violation violation)⟩
  | none =>
    let selected := Selection.select files policy request.input request.exclude
    match selected.result with
    | .error failure => ⟨files, selected.entries, .error failure⟩
    | .ok [] => ⟨files, selected.entries, .error .noFilesFound⟩
    | .ok chosen =>
      let (files, outcomes, entries) :=
        (request.settings config policy).processAll files (chosen.map Prod.fst)
      let report := ((Report.empty config.mode clock.start).addFiles outcomes).finished clock.elapsed
      let (files, written) := request.writeReport files report
      ⟨files, selected.entries ++ entries, written.map fun () => report⟩

def run (request : BuildRequest) (clock : BuildClock) (mode : Mode) (files : FileSystem) : BuildOutcome :=
  match request.flaw? with
  | some flaw => ⟨files, [], .error (.request flaw)⟩
  | none =>
    match Config.load files mode request.config with
    | .error fault => ⟨files, [], .error (.config fault)⟩
    | .ok config =>
      request.runWith clock config { workingDirectory := FileSystem.pathOf files.workingDirectory } files

end BuildRequest

end BreakpointProps
