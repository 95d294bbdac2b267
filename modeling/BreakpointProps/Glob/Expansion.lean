import BreakpointProps.FileSystem.Access
import BreakpointProps.Glob

/-!
The paths of a file system that a pattern stands for. A pattern is cut at its slashes, and its parts
are followed from directory to directory, names in ascending order.
-/

namespace BreakpointProps.Glob

/-- A directory that cannot be read. -/
structure Unreadable where
  path : Path
  fault : FileSystem.Fault
  deriving DecidableEq, Repr, Inhabited

/-- What is found on the way: a path, or a directory that cannot be read. -/
abbrev Finding := Except Unreadable Path

/-- How the names in a directory are learned. What is a directory may be closed to readers all the same. -/
abbrev Listing := Path → Except FileSystem.Fault (List String)

/-- A pattern cut into the patterns for the names on a path. -/
structure Parts where
  /-- Where the path starts. -/
  start : Path
  globs : List Glob
  /-- Does the path have to lead to a directory? -/
  directoriesOnly : Bool
  deriving DecidableEq, Repr, Inhabited

/-- The segments of a text without the empty one behind a slash at its end. -/
def cut (text : List Char) : List (List Char) :=
  let parts := Path.segments text
  if parts.getLast? == some [] then parts.dropLast else parts

/-- Cut a pattern into parts. All of it has to be a pattern, and each part as well. -/
def Parts.ofText (text : String) : Except Flaw Parts := do
  let _ ← Glob.ofText text
  let isAbsolute := (Path.mk text).isAbsolute
  let rest := if isAbsolute then text.toList.drop 1 else text.toList
  let globs ← (cut rest).mapM fun part => Glob.ofText (String.ofList part)
  return {
    start := if isAbsolute then ⟨"/"⟩ else ⟨"."⟩
    globs := if rest.isEmpty then globs ++ [⟨[]⟩] else globs
    directoriesOnly := text.toList.getLast? == some '/' }

/-- A name in a directory. Names in the working directory stand alone. -/
def within (directory : Path) (name : String) : Path :=
  if directory.components == [.current] then ⟨name⟩ else directory.join ⟨name⟩

/-- How many directories can be entered one after the other: between two links a way only leads down. -/
def depthBound (files : FileSystem) : Nat :=
  (FileSystem.maxLinks + 1) * (files.entries.foldl (fun depth entry => max depth entry.1.length) 0 + 1)

/-- A path that fits all parts. -/
def found (files : FileSystem) (directoriesOnly : Bool) (path : Path) : List Finding :=
  if directoriesOnly && !files.isDirectory path then [] else [.ok path]

/-- The steps to the directory itself and to the one above it that a part stands for. -/
def dots (glob : Glob) : List String :=
  if glob.startsWithDot then ["..", "."].filter glob.accepts else []

/-- What comes behind the first glob that is not for directories is shorter than the whole. -/
theorem length_after_lt {globs after : List Glob} {next : Glob}
    (h : globs.dropWhile isDirectories = next :: after) : after.length < globs.length := by
  have := (List.dropWhile_sublist isDirectories (l := globs)).length_le
  rw [h] at this
  exact this

mutual

/-- What the globs stand for below a path, of which so many directories may be entered. -/
def below (files : FileSystem) (list : Listing) (directoriesOnly : Bool) (depth : Nat) (globs : List Glob)
    (path : Path) : List Finding :=
  match globs with
  | [] => found files directoriesOnly path
  | glob :: rest =>
    match glob.literal? with
    | some name =>
      let next := within path name
      let isThere := if name == "." || name == ".." then files.isDirectory path else files.isThere next
      if isThere then below files list directoriesOnly depth rest next else []
    | none =>
      if files.isDirectory path then
        match list path with
        | .error fault => [.error ⟨path, fault⟩]
        | .ok names =>
          (dots glob).flatMap (fun name => below files list directoriesOnly depth rest (path.join ⟨name⟩))
            ++ match depth with
              | 0 => []
              | depth + 1 =>
                names.flatMap fun name =>
                  matching files list directoriesOnly depth (glob :: rest) (within path name) name
      else []
  termination_by (depth, globs.length, 0)

/-- What the globs stand for at a path with a name and below it. A glob for directories stands for
none as well, so that the glob behind it may fit the name already. -/
def matching (files : FileSystem) (list : Listing) (directoriesOnly : Bool) (depth : Nat)
    (globs : List Glob) (path : Path) (name : String) : List Finding :=
  match globs with
  | [] => []
  | glob :: rest =>
    if glob.isDirectories then
      let here :=
        match h : rest.dropWhile isDirectories with
        | [] => if files.isDirectory path then [.ok path] else []
        | next :: after =>
          have : after.length < rest.length := length_after_lt h
          if next.accepts name then below files list directoriesOnly depth after path else []
      let contents :=
        if files.isDirectory path then below files list directoriesOnly depth (glob :: rest) path else []
      here ++ contents
    else if glob.accepts name then below files list directoriesOnly depth rest path
    else []
  termination_by (depth, globs.length, 1)

end

/-- The paths that parts stand for, in order. -/
def Parts.expand (files : FileSystem) (list : Listing) (parts : Parts) : List Finding :=
  below files list parts.directoriesOnly (depthBound files + parts.globs.length) parts.globs parts.start

/-- How patterns are understood. -/
structure Engine where
  /-- What a pattern stands for in a file system, in order. -/
  expand : FileSystem → String → Except Flaw (List Finding)
  /-- The paths that a pattern fits. -/
  fits : String → Except Flaw (Path → Bool)

namespace Engine

/-- Patterns are followed through directories that are listed in some way. -/
def through (list : FileSystem → Listing) : Engine where
  expand files text := (Parts.ofText text).map fun parts => parts.expand files (list files)
  fits text := (ofText text).map fun glob path => glob.accepts path.text

def standard : Engine := through FileSystem.list

end Engine

end BreakpointProps.Glob
