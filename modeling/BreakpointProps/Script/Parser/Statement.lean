import BreakpointProps.Script.Parser.Declaration
import BreakpointProps.Script.Parser.Expression

/-!
Statements.
-/

namespace BreakpointProps.Script.Parse

def innerStatement (g : Grammar) : Parse Node := g (.statement false false)

def loopBody (g : Grammar) : Parse Node :=
  within (fun c => { c with breakAllowed := true, continueAllowed := true })
    (innerStatement g)

/-- An expression between parentheses. -/
def condition (g : Grammar) : Parse Node := do
  expect .lparen
  let test ← includingIn true (g .expression)
  expect .rparen
  return test

def labelName : Parse Node := do
  let start ← position
  return .leaf (.identifier (← identifierText true)) (← spanFrom start)

def nameOf? (node : Node) : Option String := match node.label with
  | .identifier name => some name
  | _ => none

/-- The end of a loop, or the end of one of its rounds. -/
def jump (start : Nat) (breaks : Bool) : Parse Node := do
  bump
  let target ← if ← eatSemicolon then pure Node.absent else do
    let label ← labelName
    expectSemicolon
    pure label
  let labels := (← get).labels
  let unknown := (nameOf? target).any fun name => !labels.contains name
  let c ← context
  if breaks then
    if unknown then note .breakToUnknownLabel
    else if !c.breakAllowed then note .breakOutsideLoop
  else if !c.continueAllowed then note .continueOutsideLoop
  else if unknown then note .unknownLabel
  return .mk (if breaks then .breakStatement else .continueStatement) (← spanFrom start) [target]

/-- A loop that is tested at its end. -/
def doWhile (g : Grammar) (start : Nat) : Parse Node := do
  bump
  let body ← loopBody g
  expectWord "while"
  let test ← condition g
  let _ ← eatSemicolon
  return .mk .doWhile (← spanFrom start) [body, test]

/-- The head of a loop from its first semicolon on, with the label of the loop. -/
def countingHead (g : Grammar) (first : Node) : Parse (Label × List Node) := do
  let test ← if ← eat .semi then pure Node.absent else do
    let test ← includingIn true (g .expression)
    let _ ← eat .semi
    pure test
  let step ← if ← at_ .rparen then pure Node.absent else includingIn true (g .expression)
  return (.forStatement, [first, test, step])

/-- The head of a loop over values from `of` or `in` on. -/
def valuesHead (g : Grammar) (awaits : Bool) (left : Node) : Parse (Label × List Node) := do
  let isOf ← atWord "of"
  bump
  if isOf then
    let right ← includingIn true (g .assignment)
    return (.forOf awaits, [left, right])
  let right ← includingIn true (g .expression)
  return (.forIn, [left, right])

def atValues : Parse Bool := do return (← atWord "of") || (← atWord "in")

def isTyped : Node → Bool
  | .mk (.binding _ _) _ [type] => !type.isAbsent
  | .mk (.arrayPattern _) _ parts | .mk (.objectPattern _) _ parts =>
    !(parts.getLast?.getD .absent).isAbsent
  | _ => false

/-- The words of a declaration of resources if the expression is made of them. -/
def usingKind? : Node → Option String
  | .mk (.identifier "using") _ _ => some "using"
  | .mk .awaitExpression _ [.mk (.identifier "using") _ _] => some "await using"
  | _ => none

def loopHead (g : Grammar) (awaits : Bool) : Parse (Label × List Node) := do
  let declares ← do
    if (← atWord "const") || (← atWord "var") then pure true
    else if ← atWord "let" then letDeclares
    else pure false
  if declares then
    let declaration ← includingIn false (variableDeclaration g true)
    if ← atValues then
      match declaration.parts with
      | [.mk (.declarator _) _ [target, value]] =>
        if !value.isAbsent then note (.initializerInForIn "")
        if (← context).typescript && isTyped target then note (.typeSyntax "TS2483")
      | items => (items.drop 1).forM fun _ => note .multipleDeclarationsInForIn
      return ← valuesHead g awaits declaration
    expect .semi
    return ← countingHead g declaration
  if ← eat .semi then return ← countingHead g .absent
  let start ← position
  let first ← includingIn false (g .expression)
  if let some kind := usingKind? first then
    if ← pure (← context).typescript <&&> notM (atWord "of")
        <&&> (aheadIsWord "of" <||> aheadIsWord "in") then
      let target ← bindingIdentifier
      let span ← spanFrom start
      let declaration := Node.mk (.variableDeclaration kind false) span
        [.mk (.declarator false) span [target, .absent]]
      if ← atWord "in" then note .usingInForIn
      return ← valuesHead g awaits declaration
  if ← atValues then
    let isIn ← atWord "in"
    let target ← toPattern .assigned first
    if (← context).typescript && isIn then
      match target.label with
      | .arrayPattern _ | .objectPattern _ => note (.typeSyntax "TS2491")
      | _ => pure ()
    return ← valuesHead g awaits target
  expect .semi
  countingHead g first

def forLoop (g : Grammar) (start : Nat) : Parse Node := do
  bump
  let awaits ← eatWord "await"
  expect .lparen
  let enter (c : Context) : Context :=
    { c with inLoopHead := true, inAwaitingHead := c.inAwaitingHead || awaits }
  let (label, parts) ← within enter (loopHead g awaits)
  expect .rparen
  let body ← loopBody g
  match label with
  | .forOf _ => pure ()
  | _ => if awaits then fail .forAwaitNotOf
  return .mk label (← spanFrom start) (parts ++ [body])

def ifStatement (g : Grammar) (start : Nat) : Parse Node := do
  bump
  expect .lparen
  let test ← attempting ⟨start, start + 2⟩ "Tried to parse the condition for an if statement"
    (includingIn true (g .expression))
  expect .rparen
  let yes ← innerStatement g
  let no ← if ← eatWord "else" then innerStatement g else pure Node.absent
  return .mk .ifStatement (← spanFrom start) [test, yes, no]

def returnStatement (g : Grammar) (start : Nat) : Parse Node := do
  bump
  let value ← if ← atSemicolon then pure Node.absent else includingIn true (g .expression)
  expectSemicolon
  if !(← context).returnAllowed then note .returnOutsideFunction
  return .mk .returnStatement (← spanFrom start) [value]

/-- A case of a choice by value, and the place of the default case. -/
def switchCase (g : Grammar) (previous : Option Span) : Parse (Node × Option Span) := do
  let start ← position
  let isCase ← atWord "case"
  bump
  let test ← if isCase then includingIn true (g .expression) else do
    if let some span := previous then fail (.multipleDefaults span)
    pure Node.absent
  let found ← if isCase then pure previous else do pure (some (← spanFrom start))
  expect .colon
  let inCase : Parse Bool := do
    return !(← atEnd) && !(← atWord "case") && !(← atWord "default") && !(← at_ .rbrace)
  let statements ← many inCase (g (.statement true false))
  return (.mk .switchCase (← spanFrom start) (test :: statements), found)

def switchStatement (g : Grammar) (start : Nat) : Parse Node := do
  bump
  let value ← condition g
  expect .lbrace
  let cases ← within (fun c => { c with breakAllowed := true }) do
    loop (([] : List Node), (none : Option Span)) fun (done, previous) => do
      if (← atWord "case") || (← atWord "default") then
        let (node, found) ← switchCase g previous
        return .inl (node :: done, found)
      return .inr done.reverse
  expect .rbrace
  return .mk .switchStatement (← spanFrom start) (value :: cases)

def throwStatement (g : Grammar) (start : Nat) : Parse Node := do
  bump
  if ← afterLineBreak then fail .lineBreakInThrow
  let value ← includingIn true (g .expression)
  expectSemicolon
  return .mk .throwStatement (← spanFrom start) [value]

/-- What is done about an exception, if anything. -/
def catchClause? (g : Grammar) : Parse Node := do
  let start ← position
  if !(← eatWord "catch") then return .absent
  let target ← if ← eat .lparen then do
      let target ← pattern g
      let type ← colonType? g
      expect .rparen
      pure (if type.isAbsent then target else withType target type false)
    else pure Node.absent
  let body ← block g
  return .mk .catchClause (← spanFrom start) [target, body]

/-- What is done in any case, if anything. -/
def finalizer? (g : Grammar) : Parse Node := do
  if ← eatWord "finally" then block g else return .absent

def tryStatement (g : Grammar) (start : Nat) : Parse Node := do
  bump
  let body ← block g
  let handler ← catchClause? g
  let finalizer ← finalizer? g
  if handler.isAbsent && finalizer.isAbsent then note .missingTryTail
  return .mk .tryStatement (← spanFrom start) [body, handler, finalizer]

/-- The handlers of a statement that is missing. Its absence is the fault that counts, whatever else is
wrong with them. -/
def strayHandlers (g : Grammar) : Parse Node := do
  let span ← currentSpan
  note .punctuationExpected
  regardless (catchClause? g)
  regardless (finalizer? g)
  return .mk .expressionStatement span [.leaf .invalid span]

def withStatement (g : Grammar) (start : Nat) : Parse Node := do
  if (← context).typescript then note (.typeSyntax "TS2410")
  note .withInStrict
  bump
  let value ← condition g
  let body ← within (fun c => { c with returnAllowed := true }) (innerStatement g)
  return .mk .withStatement (← spanFrom start) [value, body]

/-- A statement with a label whose colon was passed. -/
def labelled (g : Grammar) (label : Node) (name : String) : Parse Node :=
  within (fun c => { c with breakAllowed := true }) do
    let labels := (← get).labels
    modify fun s => { s with labels := name :: s.labels }
    let body ←
      if ← atWord "function" then do
        let node ← functionDeclaration g (← position) false true
        note .labelledFunction
        if let .functionDeclaration _ true _ := node.label then note .labelledGenerator
        pure node
      else innerStatement g
    if labels.contains name then note (.duplicateLabel name)
    modify fun s => { s with labels }
    return .mk .labelled (← spanFrom label.span.lo) [label, body]

def expressionStatement (g : Grammar) (start : Nat) : Parse Node := do
  let value ← includingIn true (g .expression)
  if let some name := nameOf? value then
    if ← eat .colon then return ← labelled g value name
    if name == "interface" && (← afterLineBreak) then
      note (.reservedInStrict name)
      let _ ← eatSemicolon
      return .mk .expressionStatement (← spanFrom start) [value]
    if (← context).typescript then
      if let some node ← declarationAfterName? g value then return node
    if name == "enum" || name == "interface" then note (.reservedInStrict name)
    if (← context).typescript && (name == "static" || name == "abstract") then
      if ← eatWord "interface" then
        note (.typeSyntax "TS2427")
        return ← interfaceDeclaration g start
  if ← eatSemicolon then return .mk .expressionStatement (← spanFrom start) [value]
  if (← current?).any Token.isBinary then
    note .punctuationExpected
    let size ← operatorBound
    let joined ← binaryTail g size 0 value
    return .mk .expressionStatement (← spanFrom start) [joined]
  fail (.expectedSemicolon value.span)

/-- A type declaration whose first word is the current one and cannot be an expression here. -/
def wordDeclaration? (g : Grammar) (start : Nat) (word : String) : Parse (Option Node) := do
  if !(← context).typescript then return none
  if word == "const" then
    if ← aheadIsWord "enum" then
      bump
      bump
      return some (← enumeration g start true)
    return none
  if !(← aheadIsName) then return none
  if word == "enum" then
    bump
    return some (← enumeration g start false)
  if ← pure (word == "interface" || word == "type") <&&> notM lineBreakAhead then
    bump
    return some (← if word == "type" then typeAlias g start else interfaceDeclaration g start)
  return none

def wordStatement (g : Grammar) (start : Nat) (declarations topLevel : Bool) (word : String) :
    Parse Node := do
  if let some node ← wordDeclaration? g start word then return node
  let noteDeclaration : Parse Unit := do
    if !declarations then note .declarationNotAllowed
  match word with
  | "break" => jump start true
  | "continue" => jump start false
  | "debugger" =>
    bump
    expectSemicolon
    return .leaf .debugger (← spanFrom start)
  | "do" => doWhile g start
  | "for" => forLoop g start
  | "function" =>
    noteDeclaration
    functionDeclaration g start false true
  | "class" =>
    noteDeclaration
    classDeclaration g start false true
  | "if" => ifStatement g start
  | "return" => returnStatement g start
  | "switch" => switchStatement g start
  | "throw" => throwStatement g start
  | "catch" | "finally" => strayHandlers g
  | "try" => tryStatement g start
  | "with" => withStatement g start
  | "while" =>
    bump
    let test ← condition g
    let body ← loopBody g
    return .mk .whileStatement (← spanFrom start) [test, body]
  | "var" => variableDeclaration g false
  | _ =>
    if word == "const" && declarations then return ← variableDeclaration g false
    if word == "let" && declarations then
      if ← letDeclares then return ← variableDeclaration g false
    if word == "await" && (declarations || topLevel) then
      if ← aheadIsWord "using" then
        bump
        if let some node ← usingDeclaration? g start true then return node
        let size ← operatorBound
        let value ← includingIn true do binaryTail g size 0 (← awaited g start)
        let _ ← eatSemicolon
        return .mk .expressionStatement (← spanFrom start) [value]
    if word == "async" then
      if ← aheadIsWord "function" <&&> notM lineBreakAhead then
        bump
        return ← functionDeclaration g start true true
    if word == "using" && declarations then
      if let some node ← usingDeclaration? g start false then return node
    expressionStatement g start

/-- A statement that is no item of a module. -/
def statement (g : Grammar) (declarations topLevel : Bool) : Parse Node :=
  within (fun c => { c with expectsColon := false }) do
    let start ← position
    match ← current? with
    | some (.word word _) => wordStatement g start declarations topLevel word
    | some (.punct .lbrace) => block g
    | some (.punct .semi) =>
      bump
      return .leaf .emptyStatement (← spanFrom start)
    | _ => expressionStatement g start

end BreakpointProps.Script.Parse
