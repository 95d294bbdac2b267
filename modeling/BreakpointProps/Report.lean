import BreakpointProps.Config
import BreakpointProps.Timestamp

/-!
The report of a build: what became of each file, and the totals over all of them.
-/

namespace BreakpointProps

/-- What became of one file. -/
structure FileOutcome where
  rewritten : Bool := false
  /-- The number of elements that were rewritten. -/
  elements : Nat := 0
  /-- Where the source was written to. -/
  output : Option String := none
  /-- Where the source map was written to. -/
  map : Option String := none
  /-- Why the file could not be read or written. -/
  error : Option String := none
  deriving DecidableEq, Repr, Inhabited

/-- The report of a build. -/
structure Report where
  /-- The version of the format. -/
  version : String
  generatedAt : Timestamp
  processed : Nat
  rewritten : Nat
  /-- The number of elements that were rewritten in all files together. -/
  elements : Nat
  failed : Nat
  mode : Mode
  toolVersion : Option String
  /-- The outcome for each path, in the order in which the paths first came. -/
  files : List (String × FileOutcome)
  /-- How long the build took, in milliseconds. -/
  elapsed : Option Nat
  deriving DecidableEq, Repr, Inhabited

namespace Report

def empty (mode : Mode) (generatedAt : Timestamp) : Report where
  version := "1.0.0"
  generatedAt
  processed := 0
  rewritten := 0
  elements := 0
  failed := 0
  mode
  toolVersion := some "0.2.0"
  files := []
  elapsed := none

/-- Give a path an outcome. A path that is there stays in its place. -/
def setFile (path : String) (file : FileOutcome) :
    List (String × FileOutcome) → List (String × FileOutcome)
  | [] => [(path, file)]
  | (other, held) :: rest =>
    if other == path then (path, file) :: rest else (other, held) :: setFile path file rest

/-- Record what became of a file. A path that comes again counts again. -/
def addFile (report : Report) (path : String) (file : FileOutcome) : Report :=
  { report with
    processed := report.processed + 1
    rewritten := report.rewritten + file.rewritten.toNat
    failed := report.failed + file.error.isSome.toNat
    elements := report.elements + file.elements
    files := setFile path file report.files }

/-- Record what became of several files. -/
def addFiles (report : Report) (files : List (String × FileOutcome)) : Report :=
  files.foldl (fun report (path, file) => report.addFile path file) report

/-- The report of a build that took so long. -/
def finished (report : Report) (elapsed : Nat) : Report := { report with elapsed := some elapsed }

end Report

end BreakpointProps
