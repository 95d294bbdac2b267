import BreakpointProps.Path

/-!
What a build is asked for.
-/

namespace BreakpointProps

structure BuildRequest where
  /-- Patterns for the files to rewrite. -/
  input : List String
  /-- Patterns for the files to leave out. -/
  exclude : List String := []
  outDirectory : Path
  /-- Where the report goes. -/
  report : Option Path := none
  config : Option Path := none
  verbose : Bool := false
  /-- How many files may be worked on at a time. -/
  jobs : Option Nat := none
  /-- Is nothing to be written? -/
  dryRun : Bool := false
  deriving DecidableEq, Repr, Inhabited

namespace BuildRequest

/-- Why a request makes no sense. -/
inductive Flaw where
  | noInput
  | noJobs
  | noOutDirectory
  deriving DecidableEq, Repr, Inhabited

def Flaw.message : Flaw → String
  | noInput => "At least one input pattern must be provided"
  | noJobs => "Number of jobs must be at least 1"
  | noOutDirectory => "Output directory must not be empty"

def flaw? (request : BuildRequest) : Option Flaw :=
  if request.input.isEmpty then some .noInput
  else if request.jobs == some 0 then some .noJobs
  else if request.outDirectory.text.isEmpty then some .noOutDirectory
  else none

end BuildRequest

end BreakpointProps
