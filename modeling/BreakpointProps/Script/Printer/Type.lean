import BreakpointProps.Script.Printer.Expression

/-!
How types and their declarations are written.
-/

namespace BreakpointProps.Script.Print

/-- The parameters of a signature: patterns alone, without the marks of a parameter. -/
def signatureItems (parameters : Part) : List Item :=
  parameters.parts.map fun p =>
    match p.label, p.parts with
    | .parameter _, [pattern] => (pattern.1, pattern.bare)
    | _, _ => (p.1, p.bare)

/-- Write the parameters of a signature between parentheses. -/
def signature (span : Span) (parameters : Part) : Print Unit := do
  write "("
  list span .commas (signatureItems parameters)
  write ")"

/-- Write a key, between brackets if it is computed. -/
def signatureKey (computed : Bool) (key : Part) : Print Unit := do
  if computed then
    write "["
    key.print
    write "]"
  else key.bare

/-- Write members between braces, each on a line of its own. -/
def members (span : Span) (items : List Item) : Print Unit := do
  leading span.lo
  write "\x7b"
  list span .statements items
  write "\x7d"

def angled (span : Span) (items : List Item) : Print Unit := do
  leading span.lo
  write "<"
  list span .commas items
  write ">"

/-- The sign of a modifier in a mapped type, and the modifier. -/
def signed (word : String) (sign : Option String) : String :=
  match sign with
  | some s => s ++ word
  | none => ""

def mapped (readonly optional : Option String) (name constraint nameType type : Part) :
    Print Unit := do
  write "\x7b"
  newLine
  indented do
    wordIf readonly.isSome (signed "readonly" readonly)
    write "["
    name.bare
    operator "in"
    constraint.print
    if !nameType.isAbsent then
      operator "as"
      nameType.print
    write "]"
    write (signed "?" optional)
    write ": "
    type.print
    write ";"
  newLine
  write "\x7d"

def type? (label : Label) (span : Span) (parts : List Part) : Option (Print Unit) :=
  match label, parts with
  | .keywordType name, _ => some do
    leading span.lo
    marked span name
  | .thisType, _ => some do
    leading span.lo
    marked span "this"
  | .typeReference, [name, arguments] => some do
    leading span.lo
    name.bare
    arguments.print
  | .qualifiedName, [left, right] => some do
    leading span.lo
    left.bare
    write "."
    right.bare
  | .typeQuery, [name, arguments] => some do
    leading span.lo
    words ["typeof"]
    name.bare
    arguments.print
  | .importOptions, [attributes] => some do
    write "\x7b"
    newLine
    indented do
      write "with: "
      attributes.bare
    newLine
    write "\x7d"
  | .importType, [argument, options, qualifier, arguments] => some do
    leading span.lo
    write "import("
    argument.bare
    if !options.isAbsent then
      write ", "
      options.bare
    write ")"
    if !qualifier.isAbsent then
      write "."
      qualifier.bare
    arguments.print
  | .typeLiteral, _ => some (members span (parts.map fun p => (p.1, p.print)))
  | .arrayType, [inner] => some do
    leading span.lo
    inner.print
    write "[]"
  | .tupleType, _ => some do
    leading span.lo
    write "["
    list span .commas (parts.map fun p => (p.1, p.print))
    write "]"
  | .tupleElement, [label, inner] => some do
    leading span.lo
    if !label.isAbsent then
      label.bare
      write ": "
    inner.print
  | .optionalType, [inner] => some do
    leading span.lo
    inner.print
    write "?"
  | .restType, [inner] => some do
    leading span.lo
    write "..."
    inner.print
  | .unionType, _ => some do
    leading span.lo
    list span .union (parts.map fun p => (p.1, p.print))
  | .intersectionType, _ => some do
    leading span.lo
    list span .intersection (parts.map fun p => (p.1, p.print))
  | .conditionalType, [checked, extended, yes, no] => some do
    leading span.lo
    checked.print
    operator "extends"
    extended.print
    operator "?"
    yes.print
    operator ":"
    no.print
  | .inferType, [parameter] => some do
    leading span.lo
    words ["infer"]
    parameter.print
  | .parenthesizedType, [inner] => some do
    leading span.lo
    write "("
    inner.print
    write ")"
  | .typeOperator op, [inner] => some do
    leading span.lo
    words [op]
    inner.print
  | .indexedType, [object, index] => some do
    leading span.lo
    object.print
    write "["
    index.print
    write "]"
  | .mappedType readonly optional, [name, constraint, nameType, inner] => some do
    leading span.lo
    mapped readonly optional name constraint nameType inner
  | .literalType, [inner] => some do
    leading span.lo
    inner.bare
  | .templateType, _ => some do
    leading span.lo
    templateParts parts false
  | .typePredicate asserts, [name, inner] => some do
    leading span.lo
    wordIf asserts "asserts"
    name.bare
    after " is " inner
  | .functionType, [typeParameters, parameters, result] => some do
    leading span.lo
    typeParameters.print
    signature span parameters
    after " => " result
  | .constructorType isAbstract, [typeParameters, parameters, result] => some do
    leading span.lo
    wordIf isAbstract "abstract"
    write (if typeParameters.isAbsent then "new" else "new ")
    typeParameters.print
    signature span parameters
    after " => " result
  | .typeArguments, _ | .typeParameters, _ => some
    (angled span (parts.map fun p => (p.1, p.print)))
  | .typeParameter modifiers, [name, constraint, default] => some do
    leading span.lo
    words (["const", "in", "out"].filter modifiers.contains)
    name.bare
    after " extends " constraint
    after " = " default
  | .colonType, [inner] => some do
    leading span.lo
    inner.print
  | .heritage, [value, arguments] => some do
    leading span.lo
    value.print
    arguments.print
  | _, _ => none

/-- Write a member of a type, without the semicolon behind it. -/
def typeMember? (label : Label) (span : Span) (parts : List Part) : Option (Print Unit) :=
  match label, parts with
  | .propertySignature readonly optional computed, [key, type] => some do
    leading span.lo
    wordIf readonly "readonly"
    signatureKey computed key
    if optional then write "?"
    after ": " type
  | .methodSignature optional computed, [key, typeParameters, parameters, returns] => some do
    leading span.lo
    signatureKey computed key
    if optional then write "?"
    typeParameters.print
    signature span parameters
    after ": " returns
  | .getterSignature computed, [key, returns] => some do
    words ["get"]
    signatureKey computed key
    write "()"
    after ": " returns
  | .setterSignature computed, [key, parameter] => some do
    words ["set"]
    signatureKey computed key
    write "("
    (signatureItems (.list [], ⟨pure (), pure (), [parameter]⟩)).forM Prod.snd
    write ")"
  | .callSignature, [typeParameters, parameters, returns] => some do
    leading span.lo
    typeParameters.print
    signature span parameters
    after " : " returns
  | .constructSignature, [typeParameters, parameters, returns] => some do
    leading span.lo
    write (if typeParameters.isAbsent then "new" else "new ")
    typeParameters.print
    signature span parameters
    after ": " returns
  | .indexSignature modifiers, [parameters, type] => some do
    leading span.lo
    wordIf (modifiers.contains "readonly") "readonly"
    write "["
    list span .commas parameters.bareItems
    write "]: "
    type.print
  | _, _ => none

/-- Write what a namespace holds. -/
def moduleBody (inner : Part) : Print Unit := do
  match inner.label with
  | .nestedNamespace => inner.bare
  | .absent => pure ()
  | _ =>
    space
    inner.bare

/-- Write a declaration of a type, without the end of its line. -/
def typeDeclaration? (label : Label) (span : Span) (parts : List Part) : Option (Print Unit) :=
  match label, parts with
  | .interface declares, [name, typeParameters, parents, inner] => some do
    leading span.lo
    wordIf declares "declare"
    words ["interface"]
    name.bare
    typeParameters.print
    if !parents.parts.isEmpty then
      write " extends "
      list span .commas parents.items
    space
    members inner.span inner.items
  | .typeAlias declares, [name, typeParameters, type] => some do
    leading span.lo
    wordIf declares "declare"
    words ["type"]
    name.bare
    typeParameters.print
    after " = " type
    write ";"
  | .enumeration declares isConst, name :: inner => some do
    leading span.lo
    wordIf declares "declare"
    wordIf isConst "const"
    words ["enum"]
    name.bare
    write " \x7b"
    list span .enumMembers (inner.map fun p => (p.1, p.print))
    write "\x7d"
  | .enumMember, [name, value] => some do
    leading span.lo
    name.bare
    after " = " value
  | .moduleDeclaration declares global, [name, inner] => some do
    leading span.lo
    wordIf declares "declare"
    let quotes := name.label matches .string _ _
    wordIf (!global) (if quotes then "module" else "namespace")
    name.bare
    moduleBody inner
  | .nestedNamespace, [name, inner] => some do
    write "."
    name.bare
    moduleBody inner
  | .moduleBlock, _ => some do
    leading span.lo
    write "\x7b"
    list span .statements (parts.map fun p => (p.1, do
      p.print
      trailing p.span.hi true))
    write "\x7d"
  | .importEquals exported typeOnly, [name, reference] => some do
    leading span.lo
    wordIf exported "export"
    words ["import"]
    wordIf typeOnly "type"
    name.bare
    operator "="
    reference.bare
    write ";"
  | .externalReference, [source] => some do
    leading span.lo
    write "require("
    source.bare
    write ")"
  | .exportAssignment, [value] => some do
    leading span.lo
    write "export = "
    value.print
  | .namespaceExport, [name] => some do
    leading span.lo
    write "export as namespace "
    name.bare
    write ";"
  | _, _ => none

end BreakpointProps.Script.Print
