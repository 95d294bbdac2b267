import BreakpointProps.FileSystem.Access

/-!
Changes of a file system. Each either yields the file system after it or says why it was not made.
-/

namespace BreakpointProps.FileSystem

def makeDirectory (files : FileSystem) (path : Path) : Except Fault FileSystem := do
  match files.slot path with
  | .error .busy => .error .alreadyThere
  | .error fault => .error fault
  | .ok (directory, name) =>
    match files.node? (directory ++ [name]) with
    | some _ => .error .alreadyThere
    | none => .ok (files.put (directory ++ [name]) .directory)

/-- A path and all that it goes through, the path itself first. -/
def pathsAlong (path : Path) : List Path :=
  (List.range path.components.length).reverse.map fun last => .ofComponents (path.components.take (last + 1))

/-- Make a directory after those that it stands in, which follow it in the list. A directory that is
there already is as good as a new one. -/
def makeAlong (files : FileSystem) : List Path → FileSystem × Except Fault Unit
  | [] => (files, .ok ())
  | path :: outer =>
    let settled (files : FileSystem) (fault : Fault) : FileSystem × Except Fault Unit :=
      (files, if files.isDirectory path then .ok () else .error fault)
    match files.makeDirectory path with
    | .ok files => (files, .ok ())
    | .error .missing =>
      match makeAlong files outer with
      | (files, .error fault) => (files, .error fault)
      | (files, .ok ()) =>
        match files.makeDirectory path with
        | .ok files => (files, .ok ())
        | .error fault => settled files fault
    | .error fault => settled files fault

def makeDirectories (files : FileSystem) (path : Path) : FileSystem × Except Fault Unit :=
  files.makeAlong (pathsAlong path)

/-- Write a file, be it a new one or one that a link leads to. -/
def write (files : FileSystem) (path : Path) (content : ByteArray) : Except Fault FileSystem :=
  (files.destination path).map fun place => files.put place (.file content)

/-- Give a file or a link another path. What was a file or a link there is replaced. -/
def move (files : FileSystem) (source target : Path) : Except Fault FileSystem := do
  let (sourceDirectory, sourceName) ← files.slot source
  let (targetDirectory, targetName) ← files.slot target
  let sourcePlace := sourceDirectory ++ [sourceName]
  let targetPlace := targetDirectory ++ [targetName]
  match files.node? sourcePlace with
  | none => .error .missing
  | some .directory => .error .isDirectory
  | some node =>
    if target.endsInSlash then .error .notDirectory
    else
      match files.node? targetPlace with
      | some .directory => .error .isDirectory
      | _ => .ok ((files.erase sourcePlace).put targetPlace node)

/-- Where a text is written to before it takes its place. -/
def temporary (path : Path) : Path := path.extended ".tmp"

/-- A disk as it takes the bytes that are written to a file: what it holds of them in the end, and why it
fails if it does. If it does not, it holds all of them. -/
structure Medium where
  stored : ByteArray → ByteArray
  fault? : ByteArray → Option Fault
  stored_eq : ∀ content, fault? content = none → stored content = content

/-- A disk that never fails. -/
def Medium.sound : Medium := ⟨id, fun _ => none, fun _ _ => rfl⟩

/-- Write a text beside its place and move it there, so that a reader sees either all of it or what was
there before. If the disk fails or the text cannot be moved, it stays beside its place. -/
def writeAtomicOn (medium : Medium) (files : FileSystem) (path : Path) (text : String) :
    FileSystem × Except Fault Unit :=
  match files.write (temporary path) (medium.stored text.toUTF8) with
  | .error fault => (files, .error fault)
  | .ok written =>
    match medium.fault? text.toUTF8 with
    | some fault => (written, .error fault)
    | none =>
      match written.move (temporary path) path with
      | .error fault => (written, .error fault)
      | .ok moved => (moved, .ok ())

/-- Write a text beside its place and move it there, on a disk that never fails. -/
def writeAtomic (files : FileSystem) (path : Path) (text : String) : FileSystem × Except Fault Unit :=
  files.writeAtomicOn .sound path text

theorem writeAtomic_eq (files : FileSystem) (path : Path) (text : String) :
    files.writeAtomic path text =
      match files.write (temporary path) text.toUTF8 with
      | .error fault => (files, .error fault)
      | .ok written =>
        match written.move (temporary path) path with
        | .error fault => (written, .error fault)
        | .ok moved => (moved, .ok ()) := rfl

end BreakpointProps.FileSystem
