import BreakpointProps.FileSystem

/-!
From paths to places: a path is followed name by name, and a link on the way is replaced by its target.
-/

namespace BreakpointProps

/-- A step on the way along a path. -/
inductive FileSystem.Step where
  /-- Stay, which is possible in a directory only. -/
  | stay
  | up
  | down (name : String)
  deriving DecidableEq, Repr, Inhabited

namespace Path

/-- The step for a segment. Empty segments are no steps. -/
def step? (segment : List Char) : Option FileSystem.Step :=
  match segment with
  | [] => none
  | ['.'] => some .stay
  | ['.', '.'] => some .up
  | name => some (.down (String.ofList name))

/-- The steps of a path, without what a slash at its end means. -/
def steps (path : Path) : List FileSystem.Step := (segments path.text.toList).filterMap step?

/-- Does a slash at the end say that the path leads to a directory? -/
def endsInSlash (path : Path) : Bool := path.text.toList.getLast? == some '/'

def route (path : Path) : List FileSystem.Step :=
  path.steps ++ if path.endsInSlash then [.stay] else []

/-- The last name of a path that may lead to a file. -/
def goal? (path : Path) : Option String :=
  if path.endsInSlash then none
  else
    match path.steps.getLast? with
    | some (.down name) => some name
    | _ => none

end Path

namespace FileSystem

def maxName : Nat := 255

def maxPath : Nat := 4095

/-- The number of links that may be followed on one way. -/
def maxLinks : Nat := 40

/-- How far a way leads before a link has to be followed. -/
inductive Advance where
  | arrived (place : Place)
  /-- A link in a directory, and the steps behind it. -/
  | link (directory : Place) (target : Path) (rest : List Step)

/-- Take steps until a link has to be followed. A link at the very end is followed only on request. -/
def advance (files : FileSystem) (followLast : Bool) : Place → List Step → Except Fault Advance
  | place, [] => .ok (.arrived place)
  | place, .stay :: rest => advance files followLast place rest
  | place, .up :: rest => advance files followLast place.dropLast rest
  | place, .down name :: rest =>
    if name.utf8ByteSize > maxName then .error .nameTooLong
    else
      let next := place ++ [name]
      match files.node? next with
      | none => .error .missing
      | some .directory => advance files followLast next rest
      | some (.file _) => if rest.isEmpty then .ok (.arrived next) else .error .notDirectory
      | some (.link target) =>
        if rest.isEmpty && !followLast then .ok (.arrived next) else .ok (.link place target rest)

/-- Where the steps of a path start. -/
def origin (path : Path) (directory : Place) : Place := if path.isAbsolute then [] else directory

/-- Take steps and follow at most so many links. -/
def walk (files : FileSystem) (followLast : Bool) : Nat → Place → List Step → Except Fault Place
  | 0, place, steps => do
    match ← files.advance followLast place steps with
    | .arrived place => .ok place
    | .link .. => .error .tooManyLinks
  | links + 1, place, steps => do
    match ← files.advance followLast place steps with
    | .arrived place => .ok place
    | .link directory target rest =>
      walk files followLast links (origin target directory) (target.route ++ rest)

def pathFault? (path : Path) : Option Fault :=
  if path.text.toList.contains '\x00' then some .nulInName
  else if path.text.isEmpty then some .missing
  else if path.text.utf8ByteSize > maxPath then some .nameTooLong
  else none

/-- Take steps from where a path starts. -/
def walkFrom (files : FileSystem) (followLast : Bool) (path : Path) (steps : List Step) :
    Except Fault Place :=
  match pathFault? path with
  | some fault => .error fault
  | none => files.walk followLast maxLinks (origin path files.workingDirectory) steps

/-- The place that a path leads to, no link being left on the way or at the end. -/
def place (files : FileSystem) (path : Path) : Except Fault Place :=
  files.walkFrom true path path.route

/-- The place that a path names, a link at the end being what it names. -/
def placeOfEntry (files : FileSystem) (path : Path) : Except Fault Place :=
  files.walkFrom false path path.route

/-- The directory in which the last name of a path stands, and that name. A path that ends in a step
without a name is in use. -/
def slot (files : FileSystem) (path : Path) : Except Fault (Place × String) := do
  let directory ← files.walkFrom true path (path.steps.dropLast ++ [.stay])
  match path.steps.getLast? with
  | some (.down name) => if name.utf8ByteSize > maxName then .error .nameTooLong else .ok (directory, name)
  | _ => .error .busy

/-- Where a file is written that has a name in the directory that steps lead to. At most so many links are
followed, those on the way and those that stand where the file is wanted. -/
def destinationAlong (files : FileSystem) : Nat → Place → List Step → Option String → Except Fault Place
  | links, start, steps, goal? => do
    match ← files.advance true start steps with
    | .link directory target rest =>
      match links with
      | 0 => .error .tooManyLinks
      | links + 1 => destinationAlong files links (origin target directory) (target.route ++ rest) goal?
    | .arrived directory =>
      match goal? with
      | none => .error .isDirectory
      | some name =>
        if name.utf8ByteSize > maxName then .error .nameTooLong
        else
          match files.node? (directory ++ [name]) with
          | some .directory => .error .isDirectory
          | some (.link target) =>
            match links with
            | 0 => .error .tooManyLinks
            | links + 1 =>
              destinationAlong files links (origin target directory) (target.steps.dropLast ++ [.stay])
                target.goal?
          | _ => .ok (directory ++ [name])

/-- Where a file is written whose path is given. -/
def destination (files : FileSystem) (path : Path) : Except Fault Place :=
  match pathFault? path with
  | some fault => .error fault
  | none =>
    files.destinationAlong maxLinks (origin path files.workingDirectory) (path.steps.dropLast ++ [.stay])
      path.goal?

end FileSystem

end BreakpointProps
