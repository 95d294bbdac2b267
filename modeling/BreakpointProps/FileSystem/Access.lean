import BreakpointProps.FileSystem.Route

/-!
What can be learned about a path without changing anything.
-/

namespace BreakpointProps.FileSystem

/-- The size that is told for a directory. -/
def directorySize : Nat := 4096

def nodeAt (files : FileSystem) (path : Path) : Except Fault Node := do
  let place ← files.place path
  match files.node? place with
  | some node => .ok node
  | none => .error .missing

def sizeAt (files : FileSystem) (path : Path) : Except Fault Nat := do
  match ← files.nodeAt path with
  | .file content => .ok content.size
  | _ => .ok directorySize

def isDirectory (files : FileSystem) (path : Path) : Bool :=
  match files.nodeAt path with
  | .ok .directory => true
  | _ => false

/-- Does a path name anything, be it a link that leads nowhere? -/
def isThere (files : FileSystem) (path : Path) : Bool :=
  match files.placeOfEntry path with
  | .ok _ => true
  | .error _ => false

def isLink (files : FileSystem) (path : Path) : Bool :=
  match files.placeOfEntry path with
  | .ok place =>
    match files.node? place with
    | some (.link _) => true
    | _ => false
  | .error _ => false

def pathOf (place : Place) : Path := .ofComponents (.root :: place.map .normal)

/-- The path from the root, free of links, to what a path leads to. -/
def canonical (files : FileSystem) (path : Path) : Except Fault Path := do
  return pathOf (← files.place path)

def readText (files : FileSystem) (path : Path) : Except Fault String := do
  match ← files.nodeAt path with
  | .file content =>
    match String.fromUTF8? content with
    | some text => .ok text
    | none => .error .notText
  | _ => .error .isDirectory

/-- The names in the directory that a path leads to, in ascending order. -/
def list (files : FileSystem) (path : Path) : Except Fault (List String) := do
  let place ← files.place path
  match files.node? place with
  | some .directory => .ok (files.children place)
  | _ => .error .notDirectory

end BreakpointProps.FileSystem
