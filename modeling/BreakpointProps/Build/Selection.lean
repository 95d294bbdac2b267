import BreakpointProps.Config
import BreakpointProps.Failure

/-!
The files of a build: those that the patterns stand for, in the order in which they are found, without
directories, excluded paths and what goes against the policy.
-/

namespace BreakpointProps

/-- What has been selected so far. -/
structure Selection where
  /-- The files with their sizes. -/
  chosen : List (Path × Nat) := []
  /-- How often a file was skipped. -/
  skipped : Nat := 0
  entries : List LogEntry := []
  deriving Inhabited

/-- How files are selected. -/
structure Selection.Rules where
  files : FileSystem
  policy : Policy
  excludes : List (Path → Bool)

namespace Selection

/-- Has the path been selected, perhaps in another spelling? -/
def contains (selection : Selection) (path : Path) : Bool :=
  selection.chosen.any fun (other, _) => other.components == path.components

def sizeOf (files : FileSystem) (path : Path) : Nat :=
  match files.sizeAt path with
  | .ok size => size
  | .error _ => 0

/-- Is a path left out without notice? -/
def Rules.leavesOut (rules : Rules) (path : Path) : Bool :=
  rules.excludes.any (fun fits => fits path) || rules.files.isDirectory path

def consider (rules : Rules) (selection : Selection) (path : Path) : Selection :=
  if rules.leavesOut path then selection
  else
    match rules.policy.inputViolation? rules.files path with
    | some violation =>
      { selection with
        skipped := selection.skipped + 1
        entries := selection.entries ++
          [⟨.warn, "Skipping file - " ++ (Failure.violation violation).message, []⟩] }
    | none =>
      if selection.contains path then selection
      else { selection with chosen := selection.chosen ++ [(path, sizeOf rules.files path)] }

/-- Decide on all that is found, until something cannot be read. -/
def considerAll (rules : Rules) (selection : Selection) :
    List Glob.Finding → Selection × Option Failure
  | [] => (selection, none)
  | .error directory :: _ => (selection, some (.unreadable directory))
  | .ok path :: rest => considerAll rules (selection.consider rules path) rest

/-- Decide on what each pattern stands for, until one is no pattern. -/
def considerPatterns (engine : Glob.Engine) (rules : Rules) (selection : Selection) :
    List String → Selection × Option Failure
  | [] => (selection, none)
  | text :: rest =>
    match engine.expand rules.files text with
    | .error flaw => (selection, some (.pattern flaw))
    | .ok found =>
      match selection.considerAll rules found with
      | (selection, some failure) => (selection, some failure)
      | (selection, none) => considerPatterns engine rules selection rest

/-- The entries with a last one on how often a file was skipped. -/
def summary (selection : Selection) : List LogEntry :=
  if selection.skipped == 0 then selection.entries
  else
    selection.entries ++
      [⟨.warn, "Skipped " ++ toString selection.skipped ++ " files due to security constraints", []⟩]

/-- What the selection of files comes to. -/
structure Outcome where
  result : Except Failure (List (Path × Nat))
  entries : List LogEntry

/-- Select the files that patterns stand for, as an engine understands them. -/
def selectBy (engine : Glob.Engine) (files : FileSystem) (policy : Policy) (patterns excludes : List String) :
    Outcome :=
  match excludes.mapM engine.fits with
  | .error flaw => ⟨.error (.pattern flaw), []⟩
  | .ok fits =>
    match considerPatterns engine ⟨files, policy, fits⟩ {} patterns with
    | (selection, some failure) => ⟨.error failure, selection.entries⟩
    | (selection, none) => ⟨.ok selection.chosen, selection.summary⟩

def select (files : FileSystem) (policy : Policy) (patterns excludes : List String) : Outcome :=
  selectBy .standard files policy patterns excludes

end Selection

end BreakpointProps
