import BreakpointProps.FileSystem.Access
import BreakpointProps.Path

/-!
Which files a build may read, and where it may write.
-/

namespace BreakpointProps

/-- The limits of a build. -/
structure Policy where
  /-- The size of the largest file that is read, in bytes. -/
  maxFileSize : Nat := 10 * 1024 * 1024
  /-- May a file be reached by a link? -/
  allowLinks : Bool := false
  /-- What a build must not leave. -/
  workingDirectory : Path
  deriving DecidableEq, Repr, Inhabited

/-- How a path goes against the limits. -/
inductive Violation where
  /-- The way to an output leads out of the working directory. -/
  | traversal (path : Path)
  | link (path : Path)
  | unresolvedLink (path : Path) (fault : FileSystem.Fault)
  /-- A link leads out of the working directory. -/
  | outside (target : Path)
  | unknownSize (path : Path) (fault : FileSystem.Fault)
  | tooLarge (path : Path) (size limit : Nat)
  deriving DecidableEq, Repr, Inhabited

/-- A number of bytes in whole mebibytes. -/
def Violation.mebibytes (size : Nat) : String := toString (size / (1024 * 1024)) ++ " MB"

def Violation.message : Violation → String
  | traversal path => "Output path '" ++ path.text ++ "' appears to use path traversal"
  | link path => "Symbolic link not allowed: " ++ path.text
  | unresolvedLink path fault => "Cannot resolve symlink '" ++ path.text ++ "': " ++ fault.message
  | outside target => "Symlink target '" ++ target.text ++ "' is outside working directory"
  | unknownSize path fault => "Cannot read file metadata for '" ++ path.text ++ "': " ++ fault.message
  | tooLarge path size limit =>
    "File '" ++ path.text ++ "' exceeds maximum size limit (" ++ mebibytes size ++ " > "
      ++ mebibytes limit ++ ")"

namespace Policy

/-- The working directory without links, or as it is given if it leads nowhere. -/
def base (policy : Policy) (files : FileSystem) : Path :=
  match files.canonical policy.workingDirectory with
  | .ok path => path
  | .error _ => policy.workingDirectory

/-- What speaks against an output. An absolute path is taken as it is; the others have to stay in the
working directory as far as their text tells. -/
def outputViolation? (policy : Policy) (files : FileSystem) (path : Path) : Option Violation :=
  let base := policy.base files
  if path.isAbsolute || (path.lexicalAbsolute base).startsWith base then none else some (.traversal path)

/-- What speaks against a link as an input. -/
def linkViolation? (policy : Policy) (files : FileSystem) (path : Path) : Option Violation :=
  if !files.isLink path then none
  else if !policy.allowLinks then some (.link path)
  else
    match files.canonical path with
    | .error fault => some (.unresolvedLink path fault)
    | .ok target => if target.startsWith (policy.base files) then none else some (.outside target)

/-- What speaks against the size of an input. -/
def sizeViolation? (policy : Policy) (files : FileSystem) (path : Path) : Option Violation :=
  match files.sizeAt path with
  | .error fault => some (.unknownSize path fault)
  | .ok size => if size > policy.maxFileSize then some (.tooLarge path size policy.maxFileSize) else none

/-- What speaks against an input. -/
def inputViolation? (policy : Policy) (files : FileSystem) (path : Path) : Option Violation :=
  (policy.linkViolation? files path).or (policy.sizeViolation? files path)

end Policy

end BreakpointProps
