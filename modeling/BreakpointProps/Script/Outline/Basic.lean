import BreakpointProps.Decimal.Literal
import BreakpointProps.Script.Node
import BreakpointProps.Text.CharClass

/-!
The outline of a node: a text in which it stands as a record with its place and its parts by name, and
where it is one of several kinds of a thing, with that kind around the record.
-/

namespace BreakpointProps.Script

structure Outline where
  /-- Which of several kinds of a thing the node is, if it can be of several. -/
  kind : String
  /-- The node by itself. -/
  body : String
  /-- The parts of the node. -/
  parts : List (Node × Outline) := []

namespace Outline

def record (name : String) (fields : List (String × String)) : String :=
  name ++ " \x7b " ++ ", ".intercalate (fields.map fun (key, text) => key ++ ": " ++ text) ++ " \x7d"

/-- One of several kinds of a thing: the kind around the text of the thing. -/
def variant (kind text : String) : String := kind ++ "(" ++ text ++ ")"

def option : Option String → String
  | some text => variant "Some" text
  | none => "None"

def row (texts : List String) : String := "[" ++ ", ".intercalate texts ++ "]"

def truth (b : Bool) : String := if b then "true" else "false"

def placed (name : String) (span : Span) (fields : List (String × String)) : String :=
  record name (("span", span.text) :: fields)

/-- A record with a place, which is of a kind. -/
def node (kind name : String) (span : Span) (fields : List (String × String)) : Outline :=
  { kind, body := placed name span fields }

/-- A record with a place and the name of its kind. -/
def named (kind : String) (span : Span) (fields : List (String × String)) : Outline :=
  node kind kind span fields

/-- The scope of a name before names are resolved. -/
def scope : String × String := ("ctxt", "#0")

/-- No decorators. -/
def decorators : String × String := ("decorators", "[]")

def text (outline : Outline) : String :=
  if outline.kind.isEmpty then outline.body else variant outline.kind outline.body

abbrev Part := Node × Outline

namespace Part

def label (part : Part) : Label := part.1.label

def span (part : Part) : Span := part.1.span

def isAbsent (part : Part) : Bool := part.1.isAbsent

def parts (part : Part) : List Part := part.2.parts

def body (part : Part) : String := part.2.body

def text (part : Part) : String := part.2.text

def body? (part : Part) : String := if part.isAbsent then "None" else variant "Some" part.body

def text? (part : Part) : String := if part.isAbsent then "None" else variant "Some" part.text

def bodies (part : Part) : String := row (part.parts.map body)

def texts (part : Part) : String := row (part.parts.map text)

end Part

/-- The plain text of a name. -/
def spelling : Label → String
  | .name text | .identifier text | .privateName text | .shorthand text => text
  | _ => ""

/-- A name that is looked up, without its kind. -/
def reference (span : Span) (name : String) : String :=
  placed "Ident" span [scope, ("sym", Text.quoted name), ("optional", "false")]

/-- The name in a part as one that is looked up. -/
def referenceOf (part : Part) : String := reference part.span (spelling part.label)

/-- The name in a part as one that is looked up, if it was not left out. -/
def referenceOf? (part : Part) : String :=
  if part.isAbsent then "None" else variant "Some" (referenceOf part)

/-- The value and the spelling of a literal. -/
def spelled (value : String) (raw : Option String) : List (String × String) :=
  [("value", value), ("raw", option (raw.map Text.quoted))]

/-- The number that the literal of a big integer stands for. -/
def bigInteger (raw : String) : Nat :=
  match raw.toList with
  | '0' :: c :: rest =>
    if c == 'x' || c == 'X' then Decimal.natOfDigits 16 rest
    else if c == 'o' || c == 'O' then Decimal.natOfDigits 8 rest
    else if c == 'b' || c == 'B' then Decimal.natOfDigits 2 rest
    else Decimal.natOfDigits 10 raw.toList
  | digits => Decimal.natOfDigits 10 digits

/-- The sign of a number literal of a type, and the literal without it. -/
def signed (raw : String) : String × String :=
  match raw.toList with
  | '-' :: rest => ("-", String.ofList rest)
  | _ => ("", raw)

/-- A literal as one of several kinds of literals. -/
def literal? (label : Label) (span : Span) : Option Outline :=
  match label with
  | .string value raw => some (named "Str" span (spelled (Text.quoted value) raw))
  | .number raw =>
    let (sign, digits) := signed raw
    let value := sign ++ Decimal.Layout.precise.text (Decimal.doubleOfLiteral digits)
    some (node "Num" "Number" span (spelled value (some raw)))
  | .bigint raw =>
    let (sign, digits) := signed raw
    some (named "BigInt" span (spelled (sign ++ toString (bigInteger digits)) (some raw)))
  | .boolean value => some (named "Bool" span [("value", truth value)])
  | .null => some (named "Null" span [])
  | .regexp body flags =>
    some (named "Regex" span [("exp", Text.quoted body), ("flags", Text.quoted flags)])
  | _ => none

def templateText (isTail : Bool) (part : Part) : String :=
  match part.label with
  | .templateText raw cooked =>
    placed "TplElement" part.span [("tail", truth isTail),
      ("cooked", option (cooked.map Text.quoted)), ("raw", Text.quoted raw)]
  | _ => ""

/-- The fields of a template: what is put into it, under a name, then its texts. -/
def templateFields (holes : String) (parts : List Part) : List (String × String) :=
  let (texts, inserted) := parts.partition fun part => part.label matches .templateText _ _
  let quasis := texts.zipIdx.map fun (part, index) => templateText (index + 1 == texts.length) part
  [(holes, row (inserted.map Part.text)), ("quasis", row quasis)]

end Outline

end BreakpointProps.Script
