import BreakpointProps.Script.Parser.Statement

/-!
Imports, exports and whole modules.
-/

namespace BreakpointProps.Script.Parse

/-- What a module is imported with, if anything is given. -/
def importAttributes? (g : Grammar) : Parse Node := do
  if !(← context).typescript || (← afterLineBreak) then return .absent
  if (← eatWord "assert") || (← eatWord "with") then objectLiteral g else return .absent

/-- The word `from`, a source, what it is imported with, and the end of the statement. -/
def fromClause (g : Grammar) : Parse (Node × Node) := do
  expectWord "from"
  let source ← moduleSource
  let attributes ← importAttributes? g
  expectSemicolon
  return (source, attributes)

/-- A name that is bound, as it stands in the tree. -/
def localName : Parse Node := declaredName true

def exportedName : Parse Node := do
  match ← current? with
  | some (.str _ _) => literal
  | some (.word _ _) => name
  | _ => unexpected "identifier or string"

def plainName? (node : Node) : Option String := match node.label with
  | .name text => some text
  | _ => none

/-- A plain name that is looked up. -/
def asIdentifier (node : Node) : Node := match node with
  | .mk (.name text) span _ => .leaf (.identifier text) span
  | other => other

/-- The names behind the word `type` in braces: the name, the name after `as`, and whether it is for
types only. `name` reads a name after `as`. -/
def typedSpecifier (word : Node) (noteDoubled : Parse Unit) (read : Parse Node) :
    Parse (Sum (Node × Node × Bool) Node) := do
  let first ← name
  if plainName? first != some "as" then
    noteDoubled
    return .inr first
  if !(← atName) then
    noteDoubled
    return .inl (first, .absent, true)
  let second ← read
  let isAs := match second.label with
    | .name text | .identifier text => text == "as"
    | _ => false
  if isAs && (← atName) then
    let third ← read
    noteDoubled
    return .inl (first, third, true)
  return .inl (word, second, false)

/-- Something that is imported, between braces. -/
def importSpecifier (typeOnly : Bool) : Parse Node := do
  let start ← position
  let first ← exportedName
  let noteDoubled : Parse Unit := do
    if typeOnly then note (.typeSyntax "TS2206")
  let finish (imported : Node) (onlyType : Bool) : Parse Node := do
    if ← eatWord "as" then
      let bound ← localName
      return .mk (.importNamed onlyType) ⟨start, bound.span.hi⟩ [bound, imported]
    match imported.label with
    | .name _ => return .mk (.importNamed onlyType) (← spanFrom start) [asIdentifier imported, .absent]
    | .string value _ => fail (.typeSyntax s!"ImportBindingIsString({Text.quoted value})")
    | _ => fail .expectedIdentifier
  if (← context).typescript && plainName? first == some "type" && (← atName) then
    match ← typedSpecifier first noteDoubled localName with
    | .inr inner => finish inner true
    | .inl (imported, bound, onlyType) =>
      let span := Span.mk start (← lastSpan).hi
      if bound.isAbsent then return .mk (.importNamed onlyType) span [asIdentifier imported, .absent]
      return .mk (.importNamed onlyType) span [bound, imported]
  else finish first false

/-- Items between braces and commas. -/
def braced (item : Parse Node) : Parse (List Node) := do
  expect .lbrace
  let items ← loop ([] : List Node) fun done => do
    if (← atEnd) || (← at_ .rbrace) then return .inr done.reverse
    let node ← item
    if !(← at_ .rbrace) then expect .comma
    return .inl (node :: done)
  expect .rbrace
  return items

/-- Another name for a module or a name in a namespace. -/
def importEquals (start : Nat) (name : Node) (exported typeOnly : Bool) : Parse Node := do
  expect .assign
  let reference ←
    if ← atWord "require" <&&> aheadIs .lparen then do
      let start ← position
      bump
      expect .lparen
      let source ← moduleSource
      expect .rparen
      pure (Node.mk .externalReference (← spanFrom start) [source])
    else entityName false
  expectSemicolon
  return .mk (.importEquals exported typeOnly) (← spanFrom start) [name, reference]

/-- How an import names the module as a whole: its default and the kind of the import. -/
structure ImportHead where
  default : Option Node := none
  typeOnly : Bool := false
  phase : String := ""

/-- The names in front of the braces of an import. -/
def importHead : Parse ImportHead := do
  if !(← atReference) then return {}
  let typescript := (← context).typescript
  let bound ← localName
  let opensList : Parse Bool := do return (← at_ .star) || (← at_ .lbrace)
  let mut head : ImportHead := { default := some bound }
  if typescript && nameOf? bound == some "type" then
    if ← opensList then return { typeOnly := true }
    if ← atReference then
      if ← notM (atWord "from") <||> aheadIsWord "from" then
        head := { default := some (← localName), typeOnly := true }
      else if ← aheadIs .assign then
        head := { default := some (asIdentifier (← name)), typeOnly := true }
  match head.default.bind nameOf? with
  | some word =>
    if (word == "source" || word == "defer") && !head.typeOnly then
      if ← opensList then return { phase := word }
      if ← atReference <&&> (notM (atWord "from") <||> aheadIsWord "from") then
        head := { default := some (← localName), phase := word }
  | none => pure ()
  return head

def importDeclaration (g : Grammar) : Parse Node := do
  let start ← position
  if ← aheadIs .dot <||> aheadIs .lparen then
    let value ← g .expression
    let _ ← eatSemicolon
    return .mk .expressionStatement (← spanFrom start) [value]
  bump
  if let some (.str _ _) ← current? then
    let source ← literal
    let attributes ← importAttributes? g
    let _ ← eatSemicolon
    return .mk (.importDeclaration false "") (← spanFrom start) [.list [], source, attributes]
  let head ← importHead
  if let some bound := head.default then
    if (← context).typescript && (← at_ .assign) then
      return ← importEquals start bound false head.typeOnly
    if !(← atWord "from") then expect .comma
  let defaults := head.default.toList.map fun bound => Node.mk .importDefault bound.span [bound]
  let listStart ← position
  let rest ← do
    if ← eat .star then
      expectWord "as"
      let bound ← localName
      pure [Node.mk .importNamespace (← spanFrom listStart) [bound]]
    else if ← at_ .lbrace then braced (importSpecifier head.typeOnly)
    else pure []
  let (source, attributes) ← fromClause g
  return .mk (.importDeclaration head.typeOnly head.phase) (← spanFrom start)
    [.list (defaults ++ rest), source, attributes]

/-- Something that is exported, between braces. -/
def exportSpecifier (typeOnly : Bool) : Parse Node := do
  let start ← position
  let first ← exportedName
  let noteDoubled : Parse Unit := do
    if typeOnly then note (.typeSyntax "TS2207")
  let finish (inner : Node) (onlyType : Bool) : Parse Node := do
    let exported ← if ← eatWord "as" then exportedName else pure Node.absent
    return .mk (.exportSpecifier onlyType) (← spanFrom start) [inner, exported]
  if (← context).typescript && plainName? first == some "type" && (← atName) then
    match ← typedSpecifier first noteDoubled name with
    | .inr inner => finish inner true
    | .inl (inner, exported, onlyType) =>
      return .mk (.exportSpecifier onlyType) (← spanFrom start) [inner, exported]
  else finish first false

/-- What stands behind `export default`. -/
def exportDefault (g : Grammar) (start : Nat) : Parse Node := do
  let wrap (node : Node) : Parse Node := do
    return .mk .exportDefaultDeclaration (← spanFrom start) [node]
  if (← context).typescript then
    if ← atWord "abstract" <&&> aheadIsWord "class" <&&> notM lineBreakAhead then
      let classStart ← position
      bump
      return ← wrap (← classDeclaration g classStart true false)
    if ← atWord "abstract" <&&> aheadIsWord "interface" then
      note (.typeSyntax "TS1242")
      bump
    if ← atWord "interface" then
      let interfaceStart ← position
      bump
      return ← wrap (← interfaceDeclaration g interfaceStart)
  let here ← position
  if ← atWord "class" then return ← wrap (← classDeclaration g here false false)
  if ← atWord "async" <&&> aheadIsWord "function" <&&> notM lineBreakAhead then
    bump
    return ← wrap (← functionDeclaration g here true false)
  if ← atWord "function" then return ← wrap (← functionDeclaration g here false false)
  let value ← includingIn true (g .assignment)
  expectSemicolon
  return .mk .exportDefaultExpression (← spanFrom start) [value]

/-- Can nothing in a module have this name? -/
def isReserved (name : String) : Bool :=
  ["break", "case", "catch", "class", "const", "continue", "debugger", "default", "delete", "do",
   "else", "enum", "export", "extends", "false", "finally", "for", "function", "if", "import", "in",
   "instanceof", "new", "null", "package", "return", "super", "switch", "this", "throw", "true", "try",
   "typeof", "var", "void", "while", "with"].contains name

/-- Exported names between braces, or everything, perhaps under a name. The names start at `listStart`. -/
def exportNames (g : Grammar) (start listStart : Nat) (typeOnly : Bool) : Parse Node := do
  if ← eat .star then
    if !(← atWord "as") then
      let (source, attributes) ← fromClause g
      return .mk (.exportAll typeOnly) (← spanFrom start) [source, attributes]
    bump
    let exported ← exportedName
    let specifier := Node.mk .exportNamespace (← spanFrom listStart) [exported]
    let (source, attributes) ← fromClause g
    return .mk (.exportNamed typeOnly) (← spanFrom start) [.list [specifier], source, attributes]
  let specifiers ← braced (exportSpecifier typeOnly)
  let (source, attributes) ← if ← atWord "from" then fromClause g else do
    for specifier in specifiers do
      match specifier.parts with
      | .mk (.string _ _) _ _ :: _ => note (.typeSyntax "ExportBindingIsString")
      | .mk (.name text) _ _ :: _ => if isReserved text then note (.exportExpectedFrom text)
      | _ => pure ()
    let _ ← eatSemicolon
    pure (Node.absent, Node.absent)
  return .mk (.exportNamed typeOnly) (← spanFrom start) [.list specifiers, source, attributes]

def typeExport? (g : Grammar) (start : Nat) : Parse (Option Node) := do
  if !(← context).typescript then return none
  let declarationStart ← position
  let wrap (node : Node) : Parse (Option Node) := do
    return some (.mk .exportDeclaration (← spanFrom start) [node])
  if ← eatWord "declare" then
    if let some node ← ambientDeclaration? g declarationStart then return ← wrap (asDeclared node)
  match ← current? with
  | some (.word word escaped) =>
    if (Token.word word escaped).isPlainWord then
      let here ← position
      if let some node ← attempt (typeDeclaration? g here word true) then return ← wrap node
  | _ => pure ()
  if ← eatWord "import" then
    let typeOnly ← do
      if ← atWord "type" then
        match ← ahead? with
        | some (.word next _) => pure (!Lex.reservedWords.contains next)
        | _ => pure false
      else pure false
    if typeOnly then bump
    let bound ← typeName
    return some (← importEquals start bound true typeOnly)
  if ← eat .assign then
    let value ← g .expression
    expectSemicolon
    return some (.mk .exportAssignment (← spanFrom start) [value])
  if ← eatWord "as" then
    expectWord "namespace"
    let bound ← identifier
    expectSemicolon
    return some (.mk .namespaceExport (← spanFrom start) [bound])
  return none

def exportDeclaration (g : Grammar) : Parse Node := do
  let start ← position
  bump
  let _ ← needCurrent
  if let some node ← typeExport? g start then return node
  let typescript := (← context).typescript
  let listStart ← position
  let typeOnly ← if typescript then eatWord "type" else pure false
  if typeOnly then return ← exportNames g start listStart true
  if ← eatWord "default" then return ← exportDefault g start
  let here ← position
  let wrap (node : Node) : Parse Node := do
    return .mk .exportDeclaration (← spanFrom start) [node]
  match ← current? with
  | some (.word word _) =>
    if word == "class" then return ← wrap (← classDeclaration g here false true)
    if ← pure (word == "async") <&&> aheadIsWord "function" <&&> notM lineBreakAhead then
      bump
      return ← wrap (← functionDeclaration g here true true)
    if word == "function" then return ← wrap (← functionDeclaration g here false true)
    if ← pure (typescript && word == "const") <&&> aheadIsWord "enum" then
      bump
      bump
      return ← wrap (← enumeration g here true)
    if word == "var" || word == "const" then return ← wrap (← variableDeclaration g false)
    if word == "let" then
      if ← letDeclares then return ← wrap (← variableDeclaration g false)
    exportNames g start listStart false
  | _ => exportNames g start listStart false

/-- A statement, or an item of a module where those are allowed. -/
def item (g : Grammar) (declarations topLevel : Bool) : Parse Node := do
  match ← current? with
  | some (.word "import" _) =>
    if topLevel then return ← importDeclaration g
    if (← aheadIs .lparen) || (← aheadIs .dot) then
      let start ← position
      let value ← g .expression
      let _ ← eatSemicolon
      return .mk .expressionStatement (← spanFrom start) [value]
    fail .importExportOnlyInModule
  | some (.word "export" _) =>
    if topLevel then exportDeclaration g else fail .importExportOnlyInModule
  | _ => statement g declarations topLevel

/-- The grammar of a script, with a bound on how deep its parts are nested. -/
def grammar : Nat → Grammar
  | 0, _ => throw .breakdown
  | n + 1, goal =>
    let g := grammar n
    match goal with
    | .expression => expression g
    | .assignment => assignmentExpression g
    | .unary => unaryExpression g
    | .operand => operand g
    | .object => objectLiteral g
    | .statement declarations topLevel => item g declarations topLevel
    | .pattern => pattern g
    | .supertype => supertype g
    | .type => type g
    | .nonConditionalType => nonConditionalType g
    | .typeOperand => operandType g
    | .element start =>
      within (fun c => { c with forcedTag := false, joinsAngles := false })
        (element g (typeArguments g) start)

def module (g : Grammar) : Parse Node := do
  bump
  let start ← position
  let shebang ← match ← current? with
    | some (.shebang text) => do
      bump
      pure (some text)
    | _ => pure none
  let items ← many (do return !(← atEnd)) (g (.statement true true))
  return .mk (.program shebang) (← spanFrom start) items

end Parse

/-- Which syntax a script is written in. -/
structure Dialect where
  jsx : Bool
  typescript : Bool
  deriving DecidableEq, Repr, Inhabited

/-- A script that was read: its tree and its comments in the order in which they were settled. -/
structure Reading where
  tree : Node
  comments : List AttachedComment
  deriving Inhabited

/-- Why a script was refused. -/
inductive Refusal where
  /-- The fault ended the reading. -/
  | fatal (fault : Fault)
  /-- The reading went on after the fault. -/
  | noted (fault : Fault)
  | breakdown
  deriving Inhabited

/-- Read a script. -/
def read (dialect : Dialect) (source : String) : Except Refusal Reading :=
  let text := source.toList
  let size := text.length
  let context : Context := { jsx := dialect.jsx, typescript := dialect.typescript }
  let lexer : Lexer := { rest := text, size := size + 8, context }
  match Parse.module (Parse.grammar (16 * size + 64)) { lexer } with
  | .error .breakdown _ => .error .breakdown
  | .error (.fault fault _) _ => .error (.fatal fault)
  | .ok tree state =>
    match state.lexer.noted with
    | some fault => .error (.noted fault)
    | none => .ok ⟨tree, state.lexer.settled.reverse⟩

end BreakpointProps.Script
