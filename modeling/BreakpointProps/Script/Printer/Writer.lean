import BreakpointProps.Script.Node

/-!
The sheet on which a script is written: its text, the indentation of the next line, the comments that
are still to be placed, and marks that tie places of the text to positions of the source.
-/

namespace BreakpointProps.Script

/-- A place of the written text that stands for a position of the source. Lines and columns count
from zero, columns in UTF-16 units. -/
structure Mark where
  line : Nat
  column : Nat
  position : Nat
  deriving DecidableEq, Repr, Inhabited

/-- The number of UTF-16 units that a character takes. -/
def units16 (c : Char) : Nat := if c.toNat < 0x10000 then 1 else 2

/-- The sheet. -/
structure Writer where
  text : String := ""
  /-- The text of the source, for what is decided by how it was written. -/
  source : List Char := []
  indent : Nat := 0
  /-- Nothing was written on the line yet. -/
  lineStart : Bool := true
  line : Nat := 0
  column : Nat := 0
  /-- A position to mark where the line goes on. -/
  pendingMark : Option Nat := none
  /-- The marks, last first. -/
  marks : List Mark := []
  /-- The comments that are still to be written. -/
  comments : List AttachedComment := []
  deriving Inhabited

/-- Writing on a sheet. -/
abbrev Print := StateM Writer

namespace Print

/-- Add text to the line. -/
def raw (text : String) : Print Unit := modify fun s =>
  { s with text := s.text ++ text
           column := text.toList.foldl (fun column c => column + units16 c) s.column }

/-- Put a mark here. A place is not marked twice for one position. -/
def markHere (position : Nat) : Print Unit := modify fun s =>
  let mark : Mark := ⟨s.line, s.column, position⟩
  let here := s.marks.takeWhile fun m => m.line == s.line && m.column == s.column
  if here.contains mark then s else { s with marks := mark :: s.marks }

/-- Mark a position of the source: here, or on a fresh line where the line goes on. -/
def mark (position : Nat) : Print Unit := do
  if position == 0 then return
  if (← get).lineStart then modify fun s => { s with pendingMark := some position }
  else markHere position

/-- Write the indentation of a fresh line. -/
def beginLine : Print Unit := do
  let s ← get
  if s.lineStart then
    raw (String.ofList (List.replicate (4 * s.indent) ' '))
    modify fun s => { s with lineStart := false, pendingMark := none }
    s.pendingMark.forM markHere

/-- Write text, behind the indentation on a fresh line. -/
def write (text : String) : Print Unit := do
  if text.isEmpty then return
  beginLine
  raw text

def space : Print Unit := write " "

/-- End the line, unless it is fresh. -/
def newLine : Print Unit := do
  let s ← get
  if s.lineStart then
    set { s with pendingMark := none }
    return
  set { s with text := s.text ++ "\n", line := s.line + 1, column := 0, lineStart := true
               pendingMark := none }
  s.pendingMark.forM markHere

/-- Write with more indentation on the lines after this one. -/
def indented {α : Type} (action : Print α) : Print α := do
  modify fun s => { s with indent := s.indent + 1 }
  let result ← action
  modify fun s => { s with indent := s.indent - 1 }
  return result

/-- The number of line ends in a text, and the number of bytes from the start of the last line on. A
carriage return in front of a line feed is one line end together with it. -/
def lineExtent : List Char → Nat → Nat → Nat × Nat
  | [], lines, bytes => (lines, bytes)
  | '\r' :: '\n' :: cs, lines, _ => lineExtent cs (lines + 1) 0
  | '\r' :: cs, lines, _ => lineExtent cs (lines + 1) 0
  | '\n' :: cs, lines, _ => lineExtent cs (lines + 1) 0
  | c :: cs, lines, bytes =>
    if c == '\u2028' || c == '\u2029' then lineExtent cs (lines + 1) 0
    else lineExtent cs lines (bytes + c.utf8Size)

def writeLines (text : String) : Print Unit := do
  write text
  let (lines, bytes) := lineExtent text.toList 0 0
  if 0 < lines then
    modify fun s => { s with line := s.line + lines, column := bytes }

def markStart (span : Span) : Print Unit := if span.isNowhere then pure () else mark span.lo

def markEnd (span : Span) : Print Unit := if span.isNowhere then pure () else mark span.hi

def markLast (span : Span) : Print Unit := if span.isNowhere then pure () else mark (span.hi - 1)

/-- Write text that may hold line ends between the marks of its span. -/
def marked (span : Span) (text : String) : Print Unit := do
  if text.isEmpty then return
  beginLine
  if !span.isNowhere then markHere span.lo
  writeLines text
  if !span.isNowhere then markHere span.hi

/-- Take the comments of one kind at a position off the sheet. -/
def takeComments (attachment : Attachment) (position : Nat) : Print (List Comment) := do
  let s ← get
  let isHere (c : AttachedComment) : Bool := c.attachment == attachment && c.position == position
  if s.comments.any isHere then
    set { s with comments := s.comments.filter (!isHere ·) }
    return (s.comments.filter isHere).map AttachedComment.comment
  return []

def writeComments (spaced : Bool) (comments : List Comment) : Print Unit :=
  comments.forM fun comment => do
    if spaced then space
    markStart comment.span
    match comment.style with
    | .line =>
      write "//"
      writeLines comment.text
      markEnd comment.span
      newLine
    | .block =>
      write "/*"
      writeLines comment.text
      if 2 ≤ comment.span.hi then mark (comment.span.hi - 2)
      write "*/"
      space

/-- Write the comments that lead what starts at a position. -/
def leading (position : Nat) : Print Unit := do
  if position == 0 then return
  writeComments false (← takeComments .leads position)

/-- Write the comments that lead the last byte before a position: those in front of the brace that
ends there. -/
def leadingLast (position : Nat) : Print Unit := do
  if position == 0 then return
  writeComments false (← takeComments .leads (position - 1))

/-- Write the comments that trail what ends at a position. -/
def trailing (position : Nat) (spaced : Bool) : Print Unit := do
  if position == 0 then return
  writeComments spaced (← takeComments .trails position)

/-- Are there comments left that lead what starts at a position? -/
def hasLeading (position : Nat) : Print Bool := do
  return (← get).comments.any fun c => c.attachment == .leads && c.position == position

/-- Is there a comment left that leads what starts at a position, and that ends a line? -/
def hasLeadingLineEnd (position : Nat) : Print Bool := do
  return (← get).comments.any fun c =>
    c.attachment == .leads && c.position == position && c.comment.endsLine

end Print

end BreakpointProps.Script
