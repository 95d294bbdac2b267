import BreakpointProps.Script.Printer.Expression

/-!
How statements, classes, imports and exports are written. A statement ends its line.
-/

namespace BreakpointProps.Script.Print

/-- Write a block and mark both its ends. -/
def block (span : Span) (statements : List Item) : Print Unit := do
  start span
  braced span statements

/-- Write the alternative of an `if` statement behind its other branch. -/
def alternative (branch other : Part) : Print Unit := do
  if !other.isAbsent then
    if branch.label matches .block then space
    words ["else"]
    other.print

/-- Write what a loop starts with or what it assigns to. -/
def loopHead (part : Part) : Print Unit :=
  if part.label matches .variableDeclaration _ _ then part.bare else part.print

/-- Write a statement without the end of its line. -/
def statement? (label : Label) (span : Span) (parts : List Part) : Option (Print Unit) :=
  match label, parts with
  | .emptyStatement, _ => some do
    leading span.lo
    write ";"
  | .debugger, _ => some do
    leading span.lo
    marked span "debugger"
    write ";"
  | .expressionStatement, [inner] => some do
    leading span.lo
    let behind ← takeComments .trails span.hi
    inner.print
    write ";"
    writeComments true behind
  | .returnStatement, [value] => some do
    start span
    write "return"
    if !value.isAbsent then operand value
    write ";"
  | .throwStatement, [value] => some do
    start span
    write "throw"
    operand value
    write ";"
  | .labelled, [name, inner] => some do
    start span
    name.bare
    write ": "
    inner.print
  | .breakStatement, [name] => some do
    start span
    write "break"
    if !name.isAbsent then
      space
      name.bare
    write ";"
  | .continueStatement, [name] => some do
    start span
    write "continue"
    if !name.isAbsent then
      space
      name.bare
    write ";"
  | .ifStatement, [test, branch, other] => some do
    start span
    write "if ("
    test.print
    write ") "
    branch.print
    alternative branch other
  | .switchStatement, value :: cases => some do
    start span
    write "switch("
    value.print
    write ")\x7b"
    list span .statements (cases.map fun p => (p.1, p.print))
    markLast span
    write "\x7d"
  | .switchCase, test :: inner => some do
    start span
    if test.isAbsent then write "default:"
    else
      words ["case"]
      test.print
      write ":"
    list span .caseStatements (inner.map fun p => (p.1, p.print))
  | .tryStatement, [inner, handler, finalizer] => some do
    start span
    words ["try"]
    inner.bare
    if !handler.isAbsent then
      space
      handler.print
    if !finalizer.isAbsent then
      write " finally"
      finalizer.bare
  | .catchClause, [pattern, inner] => some do
    start span
    words ["catch"]
    if !pattern.isAbsent then
      write "("
      pattern.print
      write ")"
    space
    inner.bare
  | .whileStatement, [test, inner] => some do
    start span
    write "while("
    test.print
    write ")"
    inner.print
  | .doWhile, [inner, test] => some do
    start span
    words ["do"]
    inner.print
    write "while ("
    test.print
    write ")"
    markEnd span
  | .forStatement, [first, test, step, inner] => some do
    start span
    write "for("
    loopHead first
    write ";"
    after " " test
    write ";"
    after " " step
    write ")"
    inner.print
  | .forIn, [head, value, inner] => some do
    start span
    write "for("
    loopHead head
    operator "in"
    value.print
    write ")"
    inner.print
  | .forOf awaits, [head, value, inner] => some do
    start span
    write (if awaits then "for await (" else "for (")
    loopHead head
    operator "of"
    value.print
    write ")"
    inner.print
  | .withStatement, [value, inner] => some do
    start span
    write "with("
    value.print
    write ")"
    inner.print
  | .variableDeclaration kind declares, _ => some do
    start span
    wordIf declares "declare"
    words [kind]
    list span .commas (parts.map fun p => (p.1, p.print))
  | .declarator _, [pattern, value] => some do
    start span
    pattern.print
    after " = " value
  | .functionDeclaration isAsync generator declares, name :: rest => some do
    start span
    wordIf declares "declare"
    wordIf isAsync "async"
    write (if generator then "function*" else "function")
    if !name.isAbsent then
      space
      name.bare
    functionRest span rest
  | _, _ => none

/-- A member of a class as an item. No semicolon follows an index signature. -/
def memberItem (part : Part) : Item :=
  (part.1, if part.label matches .indexSignature _ then part.bare else part.print)

/-- Write what follows the word `class`. Without a name there are no type parameters. -/
def classRest (span : Span) : List Part → Print Unit
  | [name, typeParameters, parent, arguments, interfaces, members] => do
    if !name.isAbsent then
      space
      name.bare
      typeParameters.print
    if !parent.isAbsent then
      write " extends "
      parent.print
      arguments.print
    if !interfaces.parts.isEmpty then
      write " implements "
      list span .commas interfaces.items
    write " \x7b"
    list span .statements (members.parts.map memberItem)
    markLast span
    write "\x7d"
  | _ => pure ()

def class? (label : Label) (span : Span) (parts : List Part) : Option (Print Unit) :=
  match label, parts with
  | .classDeclaration declares isAbstract, _ => some do
    start span
    wordIf declares "declare"
    wordIf isAbstract "abstract"
    write "class"
    classRest span parts
  | .classExpression isAbstract, _ => some do
    start span
    wordIf isAbstract "abstract"
    write "class"
    classRest span parts
  | .constructorMember access _, [_, parameters, statements] => some do
    start span
    words access.toList
    write "constructor("
    list span .commas parameters.items
    write ")"
    if statements.isAbsent then write ";" else block statements.span statements.items
  | .methodMember kind modifiers isAsync generator optional,
      [key, typeParameters, parameters, returns, statements] => some do
    leading span.lo
    let isPrivate := key.label matches .privateName _
    if !isPrivate then leading key.span.lo
    markStart span
    words (if isPrivate then modifiers.filter (· == "static") else modifiers)
    wordIf (kind == "get" || kind == "set") kind
    wordIf isAsync "async"
    if generator then write "*"
    key.bare
    if isPrivate then functionRest span [typeParameters, parameters, returns, statements]
    else
      if optional then write "?"
      typeParameters.print
      write "("
      list span .commas parameters.items
      write ")"
      after ": " returns
      if statements.isAbsent then write ";"
      else
        space
        block statements.span statements.items
  | .propertyMember modifiers optional definite, [key, type, value] => some do
    start span
    words modifiers
    key.bare
    if optional && !modifiers.contains "accessor" then write "?"
    if definite && !type.isAbsent then write "!"
    after ": " type
    after " = " value
    write ";"
    markEnd span
  | .staticBlock, [inner] => some do
    start span
    write "static"
    inner.bare
    markEnd span
  | .emptyMember, _ => some do
    leading span.lo
    write ";"
  | _, _ => none

/-- Write what is imported or exported between braces. -/
def named (span : Span) (specifiers : List Part) : Print Unit := do
  write "\x7b"
  list span .names (specifiers.map fun p => (p.1, p.print))
  write "\x7d"

/-- Write where the names come from, and under which conditions. -/
def source (source attributes : Part) : Print Unit := do
  source.bare
  if !attributes.isAbsent then
    write " with "
    attributes.bare

/-- Write the names that are imported: the default, the namespace or the names between braces. -/
def imported (span : Span) (specifiers : List Part) : Print Unit := do
  let (plain, between) := specifiers.partition fun p => !(p.label matches .importNamed _)
  match plain with
  | [] => pure ()
  | first :: rest =>
    first.print
    rest.forM fun p => do
      write ", "
      p.print
  if !between.isEmpty then
    if !plain.isEmpty then write ", "
    named span between
  if !specifiers.isEmpty then write " from "

/-- Write an import or an export without the end of its line. -/
def moduleItem? (label : Label) (span : Span) (parts : List Part) : Option (Print Unit) :=
  match label, parts with
  | .importDeclaration typeOnly phase, [specifiers, from_, attributes] => some do
    start span
    words ["import"]
    wordIf typeOnly "type"
    wordIf (!phase.isEmpty) phase
    imported span specifiers.parts
    source from_ attributes
    write ";"
    markEnd span
  | .importDefault, [name] => some name.bare
  | .importNamespace, [name] => some do
    write "* as "
    name.bare
  | .importNamed typeOnly, [name, imported] => some do
    markStart span
    wordIf typeOnly "type"
    if !imported.isAbsent then
      imported.bare
      operator "as"
    name.bare
    markEnd span
  | .exportDeclaration, [inner] => some do
    start span
    words ["export"]
    inner.bare
    if inner.label matches .variableDeclaration _ _ then
      write ";"
      markEnd span
  | .exportNamed typeOnly, [specifiers, from_, attributes] => some do
    start span
    words ["export"]
    wordIf typeOnly "type"
    let (spaces, between) :=
      specifiers.parts.partition fun p => p.label matches .exportNamespace
    spaces.forM Part.print
    if spaces.isEmpty then named span between
    if !from_.isAbsent then
      write " from "
      source from_ attributes
    write ";"
    markEnd span
  | .exportSpecifier typeOnly, [name, exported] => some do
    start span
    wordIf typeOnly "type"
    name.bare
    if !exported.isAbsent then
      operator "as"
      exported.bare
    markEnd span
  | .exportNamespace, [name] => some do
    start span
    write "* as "
    name.bare
  | .exportDefaultFrom, [name] => some name.bare
  | .exportAll typeOnly, [from_, attributes] => some do
    start span
    words ["export"]
    wordIf typeOnly "type"
    write "* from "
    source from_ attributes
    write ";"
    markEnd span
  | .exportDefaultDeclaration, [inner] => some do
    start span
    words ["export", "default"]
    inner.bare
  | .exportDefaultExpression, [inner] => some do
    start span
    words ["export", "default"]
    inner.print
    write ";"
    markEnd span
  | _, _ => none

end BreakpointProps.Script.Print
