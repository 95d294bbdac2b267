import BreakpointProps.Script.Printer.Printed

/-!
How markup is written. What stands between tags is kept to the letter.
-/

namespace BreakpointProps.Script.Print

/-- Write an attribute or, between braces, spread attributes. -/
def tagItem (part : Part) : Item :=
  match part.label with
  | .spread => (part.1, do
    write "\x7b"
    part.print
    write "\x7d")
  | _ => (part.1, part.print)

def markup? (label : Label) (span : Span) (parts : List Part) : Option (Print Unit) :=
  match label, parts with
  | .element, [opening, children, closing] => some do
    opening.print
    list span .children children.bareItems
    closing.print
  | .fragment, [children] => some do
    write "<>"
    list span .children children.bareItems
    write "</>"
  | .openingTag selfClosing, name :: types :: attributes => some do
    write "<"
    name.bare
    types.print
    if !attributes.isEmpty then
      space
      list span .attributes (attributes.map tagItem)
    write (if selfClosing then "/>" else ">")
  | .closingTag, [name] => some do
    write "</"
    name.bare
    write ">"
  | .tagMember, [object, name] => some do
    object.bare
    write "."
    name.bare
  | .tagNamespaced, [space, name] => some do
    space.bare
    write ":"
    name.bare
  | .attribute, [name, value] => some do
    name.bare
    if !value.isAbsent then
      write "="
      value.bare
  | .container, [inner] => some do
    write "\x7b"
    inner.print
    write "\x7d"
  | .spreadChild, [inner] => some do
    write "\x7b..."
    inner.print
    write "\x7d"
  | .emptyExpression, _ => some (pure ())
  | .markupText raw, _ => some (marked span raw)
  | _, _ => none

end BreakpointProps.Script.Print
