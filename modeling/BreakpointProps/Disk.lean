import BreakpointProps.CommandLine.Scope
import BreakpointProps.FileSystem

/-!
The files on a disk as a value, and the changes of the value made on the disk. What is to be done with the
files is decided elsewhere.
-/

namespace BreakpointProps.Disk

/-- What was found on a disk so far. -/
structure Survey where
  entries : List (FileSystem.Place × FileSystem.Node) := []
  /-- The directories whose contents were looked at. -/
  entered : List FileSystem.Place := []

def placeOf (path : String) : FileSystem.Place :=
  (Path.mk path).components.filterMap fun
    | .normal name => some name
    | _ => none

def pathOf (place : FileSystem.Place) : String := "/" ++ String.intercalate "/" place

/-- Add what stands at a place unless it is known. -/
def Survey.add (survey : Survey) (entry : FileSystem.Place × FileSystem.Node) : Survey :=
  if entry.1.isEmpty || (survey.entries.lookup entry.1).isSome then survey
  else { survey with entries := entry :: survey.entries }

/-- Add what stands at a place, and the directories that it stands in. -/
def Survey.note (survey : Survey) (place : FileSystem.Place) (node : FileSystem.Node) : Survey :=
  (List.range place.length).foldl (fun survey length => survey.add (place.take length, .directory))
    (survey.add (place, node))

/-- The value of an action, or nothing if it fails. -/
def attempt {α : Type} (action : IO α) : IO (Option α) := do
  try return some (← action) catch _ => return none

/-- What the disk tells about a path from the root, be it that of a link. -/
def metadata (path : String) : IO IO.FS.Metadata := do
  ((← IO.currentDir) / path).symlinkMetadata

def namesIn (path : String) : IO (List String) := do
  return ((← ((← IO.currentDir) / path).readDir).map IO.FS.DirEntry.fileName).toList

/-- Look at what stands at a place, and at all that is in it if that is wanted. A link that leads nowhere
is taken to lead to a name beside it that is not there. -/
partial def look (deep : Bool) (survey : Survey) (place : FileSystem.Place) : IO Survey := do
  let path := pathOf place
  let some metadata ← attempt (metadata path) | return survey
  match metadata.type with
  | .dir =>
    let survey := survey.note place .directory
    if !deep || survey.entered.contains place then return survey
    let survey := { survey with entered := place :: survey.entered }
    let some names ← attempt (namesIn path) | return survey
    names.foldlM (fun survey name => look deep survey (place ++ [name])) survey
  | .file =>
    let some content ← attempt (IO.FS.readBinFile path) | return survey
    return survey.note place (.file content)
  | .symlink =>
    match ← attempt (IO.FS.realPath path) with
    | some target => look deep (survey.note place (.link ⟨target.toString⟩)) (placeOf target.toString)
    | none => return survey.note place (.link ⟨path ++ " (nowhere)"⟩)
  | .other => return survey

/-- Look at all that a path goes through. -/
def lookAlong (survey : Survey) (path : Path) : IO Survey :=
  (List.range path.components.length).foldlM (fun survey length => do
    let way := Path.ofComponents (path.components.take length)
    let some start ← attempt (IO.FS.realPath way.text) | return survey
    match path.components[length]? with
    | some (.normal name) => look false survey (placeOf start.toString ++ [name])
    | _ => return survey.note (placeOf start.toString) .directory) survey

def lookBelow (survey : Survey) (path : Path) : IO Survey := do
  let survey ← lookAlong survey path
  match ← attempt (IO.FS.realPath path.text) with
  | some start => look true survey (placeOf start.toString)
  | none => return survey

/-- The files that a command can be about. -/
def read (scope : Scope) : IO FileSystem := do
  let here ← IO.currentDir
  let workingDirectory := placeOf (← IO.FS.realPath here).toString
  let absolute (path : Path) : Path := (Path.mk (pathOf workingDirectory)).join path
  let survey := Survey.note {} workingDirectory .directory
  let survey ← (scope.paths.map absolute).foldlM lookAlong survey
  let survey ← (scope.trees.map absolute).foldlM lookBelow survey
  return { entries := survey.entries, workingDirectory }

/-- Write a file so that a reader sees either all of it or what was there before. -/
def writeFile (place : FileSystem.Place) (content : ByteArray) : IO Unit := do
  let path := pathOf place
  IO.FS.writeBinFile (path ++ ".new") content
  IO.FS.rename (path ++ ".new") path

/-- Make on the disk the changes that lead from one value to another: directories before what is in
them. -/
def change (before after : FileSystem) : IO Unit := do
  let isNew (entry : FileSystem.Place × FileSystem.Node) : Bool := before.node? entry.1 != some entry.2
  let isGone (entry : FileSystem.Place × FileSystem.Node) : Bool := (after.node? entry.1).isNone
  let inOrder := (after.entries.filter isNew).mergeSort fun left right =>
    decide (left.1.length ≤ right.1.length)
  for (place, node) in inOrder do
    match node with
    | .directory => IO.FS.createDir (pathOf place)
    | .file content => writeFile place content
    | .link _ => pure ()
  for (place, _) in before.entries.filter isGone do
    IO.FS.removeFile (pathOf place)

end BreakpointProps.Disk
