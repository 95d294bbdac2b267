import BreakpointProps.Script.Printer.Writer

/-!
How the items of a list are set: what stands between them and around them, and on which lines.
-/

namespace BreakpointProps.Script

/-- What separates the items of a list. -/
inductive Separator where
  | nothing | comma | bar | ampersand
  deriving DecidableEq, Repr, Inhabited

structure ListFormat where
  separator : Separator := .nothing
  /-- Each item stands on a line of its own. -/
  multiLine : Bool := false
  indented : Bool := false
  /-- Spaces stand inside the braces around the list. -/
  spaceInside : Bool := false
  spaceBetween : Bool := false
  /-- Inside empty braces stands nothing. -/
  closedIfEmpty : Bool := false
  /-- No line ends after the last item. -/
  openEnd : Bool := false
  /-- A comma that ends the list in the source is kept. -/
  keepsComma : Bool := false
  /-- A comma ends the list. -/
  endsWithComma : Bool := false
  /-- No comments are looked for in front of an item. -/
  noComments : Bool := false
  deriving DecidableEq, Repr, Inhabited

namespace ListFormat

/-- Items after commas on one line. -/
def commas : ListFormat := { separator := .comma, spaceBetween := true }

def statements : ListFormat := { multiLine := true, indented := true }

def caseStatements : ListFormat := { multiLine := true, indented := true, openEnd := true }

def properties : ListFormat :=
  { separator := .comma, multiLine := true, indented := true, closedIfEmpty := true }

def patternProperties : ListFormat :=
  { separator := .comma, spaceBetween := true, spaceInside := true, closedIfEmpty := true }

def names : ListFormat :=
  { separator := .comma, spaceBetween := true, spaceInside := true, keepsComma := true }

def attributes : ListFormat := { spaceBetween := true, noComments := true }

/-- What stands between tags. -/
def children : ListFormat := { noComments := true }

def enumMembers : ListFormat := { separator := .comma, multiLine := true, indented := true }

def union : ListFormat := { separator := .bar, spaceBetween := true }

def intersection : ListFormat := { separator := .ampersand, spaceBetween := true }

end ListFormat

/-- An item of a list and how it is written. -/
abbrev Item := Node × Print Unit

namespace Print

/-- Does the source of a span end with a comma, apart from its last character and blanks? -/
def endsWithComma (span : Span) : Print Bool := do
  let source := (← get).source
  let rec between : List Char → Nat → List Char
    | [], _ => []
    | c :: cs, position =>
      if span.hi ≤ position then []
      else if position < span.lo then between cs (position + c.utf8Size)
      else c :: between cs (position + c.utf8Size)
  let text := between source 1
  if text.foldl (fun size c => size + c.utf8Size) 0 < 3 then return false
  let inner := (text.dropLast.reverse.dropWhile Char.isWhitespace).head?
  return inner == some ','

def separator : Separator → Print Unit
  | .nothing => pure ()
  | .comma => write ","
  | .bar => write " |"
  | .ampersand => write " &"

/-- Write the items after the first. `silent` says that no comments are looked for in front of the
next item. -/
def laterItems (parent : Span) (format : ListFormat) : Node → List Item → Print Unit
  | _, [] => pure ()
  | previous, (node, print) :: rest => do
    if format.separator != .nothing && previous.span.hi != parent.hi then
      trailing previous.span.hi false
    separator format.separator
    let broken := format.multiLine
    if broken then newLine
    else if format.spaceBetween then space
    if !broken && !format.noComments then trailing node.span.lo false
    print
    laterItems parent format node rest

/-- Write the items of a list inside a node with the span `parent`. -/
def list (parent : Span) (format : ListFormat) (items : List Item) : Print Unit := do
  match items with
  | [] =>
    if format.closedIfEmpty then pure ()
    else if format.multiLine then newLine
    else if format.spaceInside then space
  | (node, print) :: rest =>
    let inside : Print Unit := do
      if !format.multiLine && !format.noComments then trailing node.span.lo false
      print
      laterItems parent format node rest
      let kept ← if format.keepsComma then endsWithComma parent else pure false
      if kept || format.endsWithComma then
        write ","
        space
      let last := ((node, print) :: rest).getLast?.map (·.1.span) |>.getD .nowhere
      if format.separator != .nothing && last.hi != parent.hi then trailing last.hi false
    if format.multiLine then newLine
    else if format.spaceInside then space
    if format.indented then indented inside else inside
    if format.multiLine then
      if !format.openEnd then newLine
    else if format.spaceInside then space

end Print

end BreakpointProps.Script
