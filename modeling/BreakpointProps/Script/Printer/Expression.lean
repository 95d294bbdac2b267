import BreakpointProps.Script.Printer.Printed
import BreakpointProps.Script.Printer.Quoting

/-!
How expressions and patterns are written.
-/

namespace BreakpointProps.Script.Print

/-- Write an argument or an element of an array; one that is spread has dots in front. -/
def spreadable (part : Part) : Print Unit :=
  match part.label, part.parts with
  | .spread, [inner] => do
    leading part.span.lo
    write "..."
    inner.print
  | _, _ => part.print

def arguments (span : Span) (arguments : Part) : Print Unit := do
  write "("
  list span .commas (arguments.parts.map fun p => (p.1, spreadable p))
  write ")"

/-- Write what follows the name of a function: type parameters, parameters, return type, body. -/
def functionRest (span : Span) : List Part → Print Unit
  | [typeParameters, parameters, returns, statements] => do
    typeParameters.print
    write "("
    list span .commas parameters.items
    write ")"
    after ": " returns
    if statements.isAbsent then write ";"
    else
      space
      body statements
  | _ => pure ()

/-- Write a parameter of an arrow function or of the setter of an object: its pattern alone. -/
def arrowParameter (part : Part) : Item :=
  match part.label, part.parts with
  | .parameter _, [pattern] => (pattern.1, pattern.print)
  | _, _ => (part.1, part.print)

/-- Is the expression an assignment, or does it start with one or with `super` or `import`? -/
def isSheltered : Node → Bool
  | .mk label _ parts =>
    match label, parts with
    | .assignment _, _ | .superWord, _ | .importWord _, _ => true
    | .call, first :: _ | .member, first :: _ | .index, first :: _ | .optionalChain _, first :: _
    | .binary _, first :: _ | .conditional, first :: _ | .sequence, first :: _ => isSheltered first
    | _, _ => false

/-- Write an operand in parentheses if a comment that ends a line leads it, for no line may end before
it. An assignment, `super` and `import` stand in parentheses behind any comment. -/
def operand (part : Part) : Print Unit := do
  let commented ← hasLeading part.span.lo
  if (← hasLeadingLineEnd part.span.lo) || (commented && isSheltered part.1) then
    write "("
    part.print
    write ")"
  else
    space
    part.print

/-- Must a space keep the operator apart from the one that its operand starts with? -/
def joinsOperator (operator : String) (operand : Label) : Bool :=
  match operand with
  | .unary inner => inner == operator && (operator == "+" || operator == "-")
  | .update inner isPrefixed => isPrefixed && inner == operator ++ operator
  | _ => false

/-- Would a dot behind the number be read as its decimal point? -/
def takesDot (raw : String) : Bool :=
  let digits := raw.toList.filter (· != '_')
  digits.all Char.isDigit && !(1 < digits.length && digits.head? == some '0')

/-- Write the object of a member. A number may need a dot of its own. -/
def memberObject (object name : Part) : Print Unit := do
  match object.label with
  | .number raw =>
    object.bare
    if takesDot raw then
      if name.label matches .computedKey then pure ()
      else
        leading (name.span.lo - 2)
        write "."
  | _ => object.print

/-- Write a dot and the name behind it. -/
def memberName (name : Part) : Print Unit := do
  leading (name.span.lo - 1)
  write "."
  name.print

def link (optional : Bool) (inner : Part) : Print Unit :=
  match inner.label, inner.parts with
  | .member, [object, name] => do
    object.print
    write (if optional then "?." else ".")
    name.print
  | .index, [object, key] => do
    object.print
    if optional then write "?."
    key.print
  | .call, [callee, _, list] => do
    callee.print
    if optional then write "?."
    arguments inner.span list
  | _, _ => inner.print

/-- A text with a line feed for every line end of its spelling. -/
def withLineFeeds : List Char → List Char
  | '\r' :: '\n' :: cs => '\n' :: withLineFeeds cs
  | '\r' :: cs => '\n' :: withLineFeeds cs
  | c :: cs => c :: withLineFeeds cs
  | [] => []

/-- Write the text and the expressions of a template. The text is kept to the letter, or its lines end
with line feeds. -/
def templateParts (parts : List Part) (kept : Bool) : Print Unit := do
  write "\x60"
  parts.forM fun part => do
    match part.label with
    | .templateText raw _ =>
      if kept then
        markStart part.span
        writeLines raw
        markEnd part.span
      else marked part.span (String.ofList (withLineFeeds raw.toList))
    | _ =>
      write "$\x7b"
      part.print
      write "\x7d"
  write "\x60"

/-- Write a template between its marks. -/
def template (span : Span) (parts : List Part) (kept : Bool) : Print Unit := do
  markStart span
  templateParts parts kept
  markEnd span

/-- Write a literal or a name. -/
def leaf? (label : Label) (span : Span) : Option (Print Unit) :=
  let plain (text : String) : Option (Print Unit) := some do
    start span
    writeLines text
  let word (text : String) : Option (Print Unit) := some do
    leading span.lo
    marked span text
  match label with
  | .this => word "this"
  | .superWord => word "super"
  | .importWord phase => some do
    leading span.lo
    marked span "import"
    if !phase.isEmpty then write ("." ++ phase)
  | .identifier name | .name name => plain name
  | .privateName name => some do
    leading span.lo
    markStart span
    write "#"
    markStart span
    write name
    markEnd span
  | .number raw => plain raw
  | .bigint raw => word raw
  | .string value raw => some do
    start span
    writeLines (raw.getD (Quoting.quoted value))
    if value == "use strict" && raw.any (·.contains '\\') then markEnd span
  | .boolean value => plain (if value then "true" else "false")
  | .null => plain "null"
  | .regexp body flags => plain ("/" ++ body ++ "/" ++ flags)
  | .newTarget => plain "new.target"
  | .importMeta => plain "import.meta"
  | .invalid => plain "<invalid>"
  | _ => none

/-- Write an object: its properties on lines of their own. -/
def object (span : Span) (properties : List Part) : Print Unit := do
  start span
  write "\x7b"
  if properties.isEmpty then
    if ← hasLeading (span.hi - 1) then newLine
  else list span .properties (properties.map fun p => (p.1, p.print))
  markLast span
  write "\x7d"

def property? (label : Label) (span : Span) (parts : List Part) : Option (Print Unit) :=
  match label, parts with
  | .spread, [inner] => some do
    start span
    write "..."
    inner.print
    markEnd span
  | .keyValue, [key, value] => some do
    leading span.lo
    key.bare
    write ": "
    value.print
  | .shorthand name, _ => some do
    start span
    write name
  | .assignedShorthand, [key, value] => some do
    start span
    key.bare
    write "="
    value.print
  | .methodProperty isAsync generator, key :: rest => some do
    start span
    wordIf isAsync "async"
    if generator then write "*"
    key.bare
    space
    functionRest span rest
  | .getterProperty, [key, statements] => some do
    start span
    words ["get"]
    key.bare
    write " () "
    statements.print
  | .setterProperty, [key, this, parameter, statements] => some do
    start span
    words ["set"]
    key.bare
    write " ("
    if !this.isAbsent then
      (arrowParameter this).2
      write ", "
    (arrowParameter parameter).2
    write ")"
    statements.print
  | .computedKey, [inner] => some do
    markStart span
    write "["
    inner.print
    write "]"
    markEnd span
  | _, _ => none

/-- Write an expression that holds others. -/
def expression? (label : Label) (span : Span) (parts : List Part) : Option (Print Unit) :=
  match label, parts with
  | .template, _ => some do
    leading span.lo
    template span parts false
  | .taggedTemplate, [tag, types, text] => some do
    start span
    tag.print
    types.print
    leading text.span.lo
    template text.span text.parts true
    markEnd span
  | .array, _ => some do
    start span
    write "["
    let lastIsHole := parts.getLast?.any Part.isAbsent
    list span { ListFormat.properties with endsWithComma := lastIsHole }
      (parts.map fun p => (p.1, spreadable p))
    write "]"
    markEnd span
  | .object, _ => some (object span parts)
  | .functionExpression isAsync generator, name :: rest => some do
    start span
    wordIf isAsync "async"
    write (if generator then "function*" else "function")
    if !name.isAbsent then
      space
      name.bare
    functionRest span rest
  | .unary op, [inner] => some do
    start span
    write op
    if op.length != 1 || joinsOperator op inner.label then space
    inner.print
  | .update op isPrefixed, [inner] => some do
    start span
    if isPrefixed then
      write op
      inner.print
    else
      inner.print
      write op
  | .binary op, [left, right] => some do
    start span
    left.print
    operator op
    right.print
  | .assignment op, [left, right] => some do
    leading span.lo
    left.bare
    operator op
    right.print
  | .conditional, [test, yes, no] => some do
    start span
    test.print
    operator "?"
    yes.print
    operator ":"
    no.print
  | .call, [callee, types, list] => some do
    start span
    callee.print
    types.print
    arguments span list
  | .newExpression, [callee, types, list] => some do
    start span
    words ["new"]
    callee.print
    types.print
    if !list.isAbsent then arguments span list
  | .member, [object, name] => some do
    start span
    memberObject object name
    memberName name
    markEnd span
  | .index, [object, key] => some do
    start span
    memberObject object key
    key.print
    markEnd span
  | .optionalChain optional, [inner] => some do
    leading span.lo
    link optional inner
  | .sequence, first :: rest => some do
    start span
    first.print
    rest.forM fun part => do
      write ", "
      part.print
  | .arrow isAsync, [typeParameters, parameters, returns, result] => some do
    start span
    wordIf isAsync "async"
    typeParameters.print
    write "("
    list span .commas (parameters.parts.map arrowParameter)
    write ")"
    if !returns.isAbsent then
      write ": "
      returns.print
      space
    write "=>"
    if result.label matches .body | .block then body result
    else indented result.print
  | .yieldExpression delegates, [value] => some do
    start span
    write (if delegates then "yield*" else "yield")
    if !value.isAbsent then operand value
  | .awaitExpression, [value] => some do
    start span
    words ["await"]
    value.print
  | .parenthesized, [inner] => some do
    start span
    write "("
    inner.print
    markLast span
    write ")"
  | .asExpression, [inner, type] => some do
    leading span.lo
    inner.print
    operator "as"
    type.print
  | .asConst, [inner] | .constAssertion, [inner] => some do
    leading span.lo
    inner.print
    operator "as"
    write "const"
  | .satisfiesExpression, [inner, type] => some do
    leading span.lo
    inner.print
    operator "satisfies"
    type.print
  | .nonNull, [inner] => some do
    leading span.lo
    inner.print
    write "!"
  | .typeAssertion, [type, inner] => some do
    leading span.lo
    write "<"
    type.print
    write ">"
    inner.print
  | .instantiation, [inner, types] => some do
    leading span.lo
    inner.print
    types.print
  | _, _ => none

def patternType (optional : Bool) (type : Option Part) : Print Unit := do
  if optional then write "?"
  type.forM (after ": ")

def pattern? (label : Label) (span : Span) (parts : List Part) : Option (Print Unit) :=
  match label, parts with
  | .binding name optional, _ => some do
    start span
    write name
    patternType optional parts.head?
  | .arrayPattern optional, _ => some do
    start span
    write "["
    list span .commas (parts.dropLast.map fun p => (p.1, p.print))
    write "]"
    patternType optional parts.getLast?
    markEnd span
  | .objectPattern optional, _ => some do
    start span
    write "\x7b"
    list span .patternProperties (parts.dropLast.map fun p => (p.1, p.print))
    write "\x7d"
    patternType optional parts.getLast?
    markEnd span
  | .keyPattern, [key, pattern] => some do
    start span
    key.bare
    write ": "
    pattern.print
    markEnd span
  | .shorthandPattern _, [value, key] => some do
    start span
    key.bare
    after " = " value
    markEnd span
  | .defaulted, [pattern, value] => some do
    start span
    pattern.print
    operator "="
    value.print
    markEnd span
  | .rest dots, [pattern, type] => some do
    leading span.lo
    marked ⟨dots, dots + 3⟩ "..."
    pattern.print
    after ": " type
  | .parameter [], [pattern] => some do
    start span
    pattern.print
    markEnd span
  | .parameter modifiers, [pattern] => some do
    leading span.lo
    words modifiers
    pattern.bare
  | _, _ => none

end BreakpointProps.Script.Print
