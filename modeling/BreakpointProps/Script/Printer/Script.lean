import BreakpointProps.Script.Printer.Markup
import BreakpointProps.Script.Printer.Statement
import BreakpointProps.Script.Printer.Type

/-!
How a whole script is written: four spaces of indentation, a semicolon behind each statement,
literals as they were spelled, comments kept where their token is.
-/

namespace BreakpointProps.Script

namespace Print

/-- Is the node an expression, which may have comments behind it? -/
def isExpression (label : Label) : Bool :=
  match label with
  | .this | .identifier _ | .number _ | .bigint _ | .string _ _ | .regexp _ _ | .boolean _ | .null
  | .template | .taggedTemplate | .array | .object | .functionExpression _ _ | .classExpression _
  | .unary _ | .update _ _ | .binary _ | .assignment _ | .conditional | .call | .newExpression
  | .member | .index | .optionalChain _ | .sequence | .arrow _ | .yieldExpression _
  | .awaitExpression | .parenthesized | .newTarget | .importMeta | .invalid | .asExpression | .asConst
  | .satisfiesExpression | .nonNull | .typeAssertion | .constAssertion | .instantiation
  | .element | .fragment => true
  | _ => false

/-- Is the node a pattern, which may have comments behind it? -/
def isPattern (label : Label) : Bool :=
  match label with
  | .binding _ _ | .arrayPattern _ | .objectPattern _ | .defaulted | .rest _ => true
  | _ => false

/-- Is the node a statement, which ends its line? -/
def isStatement (label : Label) : Bool :=
  match label with
  | .emptyStatement | .debugger | .expressionStatement | .returnStatement | .labelled
  | .breakStatement | .continueStatement | .ifStatement | .switchStatement | .throwStatement
  | .tryStatement | .whileStatement | .doWhile | .forStatement | .forIn | .forOf _ | .withStatement
  | .variableDeclaration _ _ | .functionDeclaration _ _ _ | .classDeclaration _ _ | .interface _
  | .typeAlias _ | .enumeration _ _ | .moduleDeclaration _ _ => true
  | _ => false

/-- Is the node an import or an export, which ends its line? -/
def isModuleItem (label : Label) : Bool :=
  match label with
  | .importDeclaration _ _ | .exportDeclaration | .exportNamed _ | .exportAll _
  | .exportDefaultDeclaration | .exportDefaultExpression | .importEquals _ _ | .exportAssignment
  | .namespaceExport => true
  | _ => false

/-- Is the node a member of a type, which ends with a semicolon? -/
def isTypeMember (label : Label) : Bool :=
  match label with
  | .propertySignature _ _ _ | .methodSignature _ _ | .getterSignature _ | .setterSignature _
  | .callSignature | .constructSignature | .indexSignature _ => true
  | _ => false

/-- Write a node, without what follows from its place. -/
def bare (label : Label) (span : Span) (parts : List Part) : Print Unit :=
  let found :=
    leaf? label span <|> expression? label span parts <|> markup? label span parts
      <|> property? label span parts <|> pattern? label span parts <|> statement? label span parts
      <|> class? label span parts <|> moduleItem? label span parts <|> type? label span parts
      <|> typeMember? label span parts <|> typeDeclaration? label span parts
  match label with
  | .block => block span (parts.map fun p => (p.1, p.print))
  | _ => found.getD (pure ())

def node (label : Label) (span : Span) (parts : List Part) : Printed :=
  let bare := bare label span parts
  let print : Print Unit :=
    if isExpression label || isPattern label then do
      bare
      trailing span.hi true
    else if isStatement label then do
      bare
      if label matches .variableDeclaration _ _ then write ";"
      trailing span.hi true
      newLine
    else if isModuleItem label then do
      bare
      trailing span.hi true
      newLine
    else if isTypeMember label then do
      bare
      write ";"
    else bare
  { print, bare, parts }

def script (tree : Node) : Print Unit := do
  leading tree.span.lo
  match tree with
  | .mk (.program shebang) span items =>
    shebang.forM fun text => do
      write ("#!" ++ text)
      newLine
    if items.isEmpty then markStart span
    items.forM fun item => do
      (item.fold node).print
      trailing item.span.hi true
    trailing span.hi true
  | _ => (tree.fold node).print

end Print

/-- The text of a script, and the marks that tie it to the source. -/
structure Written where
  text : String
  marks : List Mark
  deriving Repr

def Node.write (tree : Node) (comments : List AttachedComment) (source : String) : Written :=
  let (_, sheet) := (Print.script tree).run { source := source.toList, comments }
  { text := sheet.text, marks := sheet.marks.reverse }

end BreakpointProps.Script
