import BreakpointProps.Script.Printer.Layout

/-!
What is known about how a node is written when the node around it is written.
-/

namespace BreakpointProps.Script

/-- How a node is written. -/
structure Printed where
  /-- With the comments that trail it. -/
  print : Print Unit
  /-- Without the comments that trail it. -/
  bare : Print Unit
  /-- The parts of the node. -/
  parts : List (Node × Printed)

/-- A part of a node, and how it is written. -/
abbrev Part := Node × Printed

namespace Part

/-- Write the part with the comments that trail it. -/
def print (part : Part) : Print Unit := part.2.print

/-- Write the part without the comments that trail it. -/
def bare (part : Part) : Print Unit := part.2.bare

def parts (part : Part) : List Part := part.2.parts

def span (part : Part) : Span := part.1.span

def label (part : Part) : Label := part.1.label

def isAbsent (part : Part) : Bool := part.1.isAbsent

def items (part : Part) : List Item := part.parts.map fun p => (p.1, p.print)

/-- The parts of the part as the items of a list, without the comments that trail them. -/
def bareItems (part : Part) : List Item := part.parts.map fun p => (p.1, p.bare)

end Part

namespace Print

/-- Start a node: write the comments that lead it, and mark its start. -/
def start (span : Span) : Print Unit := do
  leading span.lo
  markStart span

/-- Write words, each with a space behind it. -/
def words (texts : List String) : Print Unit := texts.forM fun text => do
  write text
  space

def wordIf (wanted : Bool) (text : String) : Print Unit := do
  if wanted then words [text]

/-- Write an operator between spaces. -/
def operator (text : String) : Print Unit := do
  space
  write text
  space

/-- Write the part, if it was not left out, behind some text. -/
def after (text : String) (part : Part) : Print Unit := do
  if !part.isAbsent then
    write text
    part.print

/-- Write the statements of a block between its braces. An empty block is closed on its line. -/
def braced (span : Span) (statements : List Item) : Print Unit := do
  write "\x7b"
  if !statements.isEmpty || (← hasLeading (span.hi - 1)) then
    list span .statements statements
  leadingLast span.hi
  markLast span
  write "\x7d"

/-- Write the body of a function, whose start is not marked. -/
def body (part : Part) : Print Unit := do
  leading part.span.lo
  braced part.span part.items

end Print

end BreakpointProps.Script
