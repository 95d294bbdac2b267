import BreakpointProps.Path

/-!
A file system as a value: what stands at each place, and where relative paths start.
-/

namespace BreakpointProps

/-- What stands at a place. -/
inductive FileSystem.Node where
  | file (content : ByteArray)
  | directory
  /-- A symbolic link. -/
  | link (target : Path)
  deriving Inhabited

instance : DecidableEq FileSystem.Node
  | .file a, .file b => match ByteArray.instDecidableEq a b with
    | isTrue hsame => isTrue (congrArg _ hsame)
    | isFalse hother => isFalse fun hnode => hother (FileSystem.Node.file.inj hnode)
  | .directory, .directory => isTrue rfl
  | .link a, .link b =>
    if hsame : a = b then isTrue (congrArg _ hsame)
    else isFalse fun hnode => hsame (FileSystem.Node.link.inj hnode)
  | .file _, .directory | .file _, .link _ | .directory, .file _ | .directory, .link _
  | .link _, .file _ | .link _, .directory => isFalse nofun

/-- A place in a file system: the names that lead to it from the root, none of them that of a link. -/
abbrev FileSystem.Place := List String

/-- The files, directories and links, each at its place, and the working directory. -/
structure FileSystem where
  entries : List (FileSystem.Place × FileSystem.Node) := []
  workingDirectory : FileSystem.Place := []
  deriving Inhabited

namespace FileSystem

/-- What stands at a place. The root is always a directory. -/
def node? (files : FileSystem) : Place → Option Node
  | [] => some .directory
  | place => files.entries.lookup place

/-- Take away what stands at a place. -/
def erase (files : FileSystem) (place : Place) : FileSystem :=
  { files with entries := files.entries.filter fun entry => entry.1 != place }

def put (files : FileSystem) (place : Place) (node : Node) : FileSystem :=
  { files with entries := (place, node) :: (files.erase place).entries }

def nameIn? (directory : Place) (entry : Place × Node) : Option String :=
  if entry.1.dropLast == directory then entry.1.getLast? else none

/-- The names in a directory, in ascending order. -/
def children (files : FileSystem) (directory : Place) : List String :=
  (files.entries.filterMap (nameIn? directory)).mergeSort fun left right => decide (left ≤ right)

/-- Why an operation on a file system fails. -/
inductive Fault where
  | missing
  | notDirectory
  | isDirectory
  | alreadyThere
  | busy
  | nameTooLong
  | tooManyLinks
  /-- The disk is full. -/
  | noSpace
  /-- The bytes of a file are not the encoding of a text. -/
  | notText
  /-- A path holds the character that ends a path for the system. -/
  | nulInName
  deriving DecidableEq, Repr, Inhabited

def Fault.message : Fault → String
  | missing => "No such file or directory (os error 2)"
  | notDirectory => "Not a directory (os error 20)"
  | isDirectory => "Is a directory (os error 21)"
  | alreadyThere => "File exists (os error 17)"
  | busy => "Device or resource busy (os error 16)"
  | nameTooLong => "File name too long (os error 36)"
  | tooManyLinks => "Too many levels of symbolic links (os error 40)"
  | noSpace => "No space left on device (os error 28)"
  | notText => "stream did not contain valid UTF-8"
  | nulInName => "file name contained an unexpected NUL byte"

end FileSystem

end BreakpointProps
