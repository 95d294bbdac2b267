import BreakpointProps.Script.Outline.Expression
import BreakpointProps.Script.Outline.Type

/-!
The outlines of statements, and the outline of an expression with all that stands in it, which a message
about it quotes.
-/

namespace BreakpointProps.Script

namespace Outline

/-- A part where a statement stands. A declaration is one of several kinds of statements. -/
def statement (part : Part) : String :=
  match part.label with
  | .variableDeclaration _ _ | .functionDeclaration _ _ _ | .classDeclaration _ _ | .interface _
  | .typeAlias _ | .enumeration _ _ | .moduleDeclaration _ _ => variant "Decl" part.text
  | _ => part.text

def statements (parts : List Part) : String := row (parts.map statement)

def declaresResources (part : Part) : Bool :=
  match part.label with
  | .variableDeclaration kind _ => kind == "using" || kind == "await using"
  | _ => false

/-- What a loop starts with, if it starts with something. -/
def start? (part : Part) : String :=
  match part.label with
  | .absent => "None"
  | .variableDeclaration _ _ => variant "Some" (variant "VarDecl" part.body)
  | _ => variant "Some" (variant "Expr" part.text)

/-- What a loop over values assigns to. -/
def head (part : Part) : String :=
  match part.label with
  | .variableDeclaration _ _ =>
    variant (if declaresResources part then "UsingDecl" else "VarDecl") part.body
  | _ => variant "Pat" (target part)

def statement? (label : Label) (span : Span) (parts : List Part) : Option Outline :=
  match label, parts with
  | .block, _ | .body, _ => some (node "Block" "BlockStmt" span [scope, ("stmts", statements parts)])
  | .emptyStatement, _ => some (node "Empty" "EmptyStmt" span [])
  | .debugger, _ => some (node "Debugger" "DebuggerStmt" span [])
  | .expressionStatement, [inner] => some (node "Expr" "ExprStmt" span [("expr", inner.text)])
  | .returnStatement, [value] => some (node "Return" "ReturnStmt" span [("arg", value.text?)])
  | .throwStatement, [value] => some (node "Throw" "ThrowStmt" span [("arg", value.text)])
  | .labelled, [name, inner] => some <|
    node "Labeled" "LabeledStmt" span [("label", referenceOf name), ("body", statement inner)]
  | .breakStatement, [name] => some (node "Break" "BreakStmt" span [("label", referenceOf? name)])
  | .continueStatement, [name] => some <|
    node "Continue" "ContinueStmt" span [("label", referenceOf? name)]
  | .ifStatement, [test, branch, other] => some <|
    let alternative := if other.isAbsent then "None" else variant "Some" (statement other)
    node "If" "IfStmt" span [("test", test.text), ("cons", statement branch), ("alt", alternative)]
  | .switchStatement, value :: cases => some <|
    node "Switch" "SwitchStmt" span [("discriminant", value.text), ("cases", row (cases.map Part.text))]
  | .switchCase, test :: inner => some <|
    node "" "SwitchCase" span [("test", test.text?), ("cons", statements inner)]
  | .tryStatement, [inner, handler, finalizer] => some <|
    node "Try" "TryStmt" span [("block", inner.body), ("handler", handler.body?),
      ("finalizer", finalizer.body?)]
  | .catchClause, [pattern, inner] => some <|
    node "" "CatchClause" span [("param", target? pattern), ("body", inner.body)]
  | .whileStatement, [test, inner] => some <|
    node "While" "WhileStmt" span [("test", test.text), ("body", statement inner)]
  | .doWhile, [inner, test] => some <|
    node "DoWhile" "DoWhileStmt" span [("test", test.text), ("body", statement inner)]
  | .forStatement, [first, test, step, inner] => some <|
    node "For" "ForStmt" span [("init", start? first), ("test", test.text?), ("update", step.text?),
      ("body", statement inner)]
  | .forIn, [left, value, inner] => some <|
    node "ForIn" "ForInStmt" span [("left", head left), ("right", value.text),
      ("body", statement inner)]
  | .forOf awaits, [left, value, inner] => some <|
    node "ForOf" "ForOfStmt" span [("is_await", truth awaits), ("left", head left),
      ("right", value.text), ("body", statement inner)]
  | .withStatement, [value, inner] => some <|
    node "With" "WithStmt" span [("obj", value.text), ("body", statement inner)]
  | .variableDeclaration kind declares, _ => some <|
    let declarators := ("decls", row (parts.map Part.body))
    if kind == "using" || kind == "await using" then
      node "Using" "UsingDecl" span [("is_await", truth (kind == "await using")), declarators]
    else
      node "Var" "VarDecl" span
        [scope, ("kind", Text.quoted kind), ("declare", truth declares), declarators]
  | .declarator definite, [pattern, value] => some <|
    node "" "VarDeclarator" span [("name", target pattern), ("init", value.text?),
      ("definite", truth definite)]
  | .functionDeclaration isAsync generator declares, name :: rest => some
    { kind := "Fn"
      body := record "FnDecl" [("ident", referenceOf name), ("declare", truth declares),
        ("function", function span isAsync generator rest)] }
  | .classDeclaration declares isAbstract, name :: _ => some
    { kind := "Class"
      body := record "ClassDecl" [("ident", referenceOf name), ("declare", truth declares),
        ("class", class_ span isAbstract parts)] }
  | _, _ => none

def typeDeclaration? (label : Label) (span : Span) (parts : List Part) : Option Outline :=
  match label, parts with
  | .interface declares, [name, typeParameters, parents, members] => some <|
    let body := placed "TsInterfaceBody" members.span [("body", members.texts)]
    node "TsInterface" "TsInterfaceDecl" span [("id", referenceOf name), ("declare", truth declares),
      ("type_params", typeParameters.body?), ("extends", parents.bodies), ("body", body)]
  | .typeAlias declares, [name, typeParameters, type] => some <|
    node "TsTypeAlias" "TsTypeAliasDecl" span [("declare", truth declares), ("id", referenceOf name),
      ("type_params", typeParameters.body?), ("type_ann", type.text)]
  | .enumeration declares isConst, name :: members => some <|
    node "TsEnum" "TsEnumDecl" span [("declare", truth declares), ("is_const", truth isConst),
      ("id", referenceOf name), ("members", row (members.map Part.body))]
  | .enumMember, [name, value] => some <|
    let id := match literal? name.label name.span with
      | some found => found.text
      | none => variant "Ident" (referenceOf name)
    node "" "TsEnumMember" span [("id", id), ("init", value.text?)]
  | _, _ => none

def ofParts (label : Label) (span : Span) (parts : List (Node × Outline)) : Outline :=
  let found :=
    leaf? label span <|> expression? label span parts <|> property? label span parts
      <|> pattern? label span parts <|> markup? label span parts <|> statement? label span parts
      <|> member? label span parts <|> type? label span parts <|> typeMember? label span parts
      <|> typeDeclaration? label span parts
  { found.getD { kind := "", body := "None" } with parts }

end Outline

def Node.outline (node : Node) : String := (node.fold Outline.ofParts).text

end BreakpointProps.Script
