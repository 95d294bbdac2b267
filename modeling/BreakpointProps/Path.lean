/-!
Paths with slashes between their components, and what they lead to by their text alone, without a look at any
file: a step to the parent undoes the step before it, and at the root there is nothing to undo.
-/

namespace BreakpointProps

inductive Component where
  | root
  /-- A single dot, which counts only at the start of a path. -/
  | current
  | parent
  | normal (name : String)
  deriving DecidableEq, Repr, Inhabited

def Component.isName : Component → Bool
  | .normal _ => true
  | _ => false

structure Path where
  text : String
  deriving DecidableEq, Repr, Inhabited

namespace Path

def segments : List Char → List (List Char)
  | [] => [[]]
  | c :: cs =>
    if c == '/' then [] :: segments cs
    else match segments cs with
      | [] => [[c]]
      | s :: rest => (c :: s) :: rest

/-- The component that a segment is. Empty segments and single dots count for nothing. -/
def component? (segment : List Char) : Option Component :=
  if segment.isEmpty || segment == ['.'] then none
  else if segment == ['.', '.'] then some .parent
  else some (.normal (String.ofList segment))

def isAbsolute (path : Path) : Bool := path.text.toList.head? == some '/'

def components (path : Path) : List Component :=
  let parts := segments path.text.toList
  let first : List Component :=
    if path.isAbsolute then [.root] else if parts.head? == some ['.'] then [.current] else []
  first ++ parts.filterMap component?

def fileName? (path : Path) : Option String :=
  match path.components.getLast? with
  | some (.normal name) => some name
  | _ => none

/-- Put a path behind another, with a slash between them unless one is there. An absolute path
replaces what is before it. -/
def join (base path : Path) : Path :=
  if path.isAbsolute then path
  else if base.text.isEmpty || base.text.toList.getLast? == some '/' then ⟨base.text ++ path.text⟩
  else ⟨base.text ++ "/" ++ path.text⟩

def ofComponent : Component → Path
  | .root => ⟨"/"⟩
  | .current => ⟨"."⟩
  | .parent => ⟨".."⟩
  | .normal name => ⟨name⟩

def ofComponents (components : List Component) : Path :=
  components.foldl (fun path component => path.join (ofComponent component)) ⟨""⟩

/-- The path without its last component. The root has no parent. -/
def parent? (path : Path) : Option Path :=
  match path.components.getLast? with
  | none | some .root => none
  | some _ => some (ofComponents path.components.dropLast)

/-- Do the components of a path begin with those of another? -/
def startsWith (path start : Path) : Bool := start.components.isPrefixOf path.components

/-- The path with more text at the end of its last name. -/
def extended (path : Path) (ending : String) : Path := ⟨path.text ++ ending⟩

/-- What follows the last dot of a name, unless the name starts with that dot. -/
def extensionOfName? (name : String) : Option String :=
  let (reversed, before) := name.toList.reverse.span (· != '.')
  if before.length ≤ 1 then none else some (String.ofList reversed.reverse)

def extension? (path : Path) : Option String :=
  path.fileName?.bind fun name => if name == ".." then none else extensionOfName? name

/-- Take one more component into account. -/
def follow (resolved : List Component) : Component → List Component
  | .current => resolved
  | .parent => if resolved.getLast? == some .root then resolved else resolved.dropLast
  | component => resolved ++ [component]

/-- The components that are left when every step to a parent is undone. -/
def resolved (components : List Component) : List Component := components.foldl follow []

/-- The path that another one, seen from a base, leads to. -/
def lexicalAbsolute (path base : Path) : Path := ofComponents (resolved (base.join path).components)

/-- Where the result for an input goes: into the directory for results, under the names on the way to
the input. A working directory at the start of the input does not count. -/
def outputFor (input directory workingDirectory : Path) : Path :=
  let skipped := if input.startsWith workingDirectory then workingDirectory.components.length else 0
  directory.join (ofComponents ((input.components.drop skipped).filter Component.isName))

/-- Where the source map of a result goes. -/
def sidecar (output : Path) : Path := output.extended ".map"

end Path

end BreakpointProps
