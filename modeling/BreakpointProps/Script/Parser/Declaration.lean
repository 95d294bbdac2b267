import BreakpointProps.Script.Parser.Function

/-!
Declarations: variables, and the declarations that only exist where types are recognised.
-/

namespace BreakpointProps.Script.Parse

/-- Pass the end of a statement, or note its absence and pass everything up to the next end. -/
def forceSemicolon (g : Grammar) : Parse Unit := do
  if ← eatSemicolon then return
  note .punctuationExpected
  let ignored : Parse Unit := fun s =>
    match g .expression s with
    | .ok _ t => .ok () t
    | .error .breakdown t => .error .breakdown t
    | .error _ t => .ok () t
  ignored
  loop () fun () => do
    if ← eatSemicolon then return .inr ()
    bump
    match ← current? with
    | some (.malformed _ _) => return .inr ()
    | _ => return .inl ()

/-- One variable of a declaration, with its value. -/
def declarator (g : Grammar) (kind : String) (inHead : Bool) : Parse Node := do
  let start ← position
  if kind != "var" then refuseLet
  let target ← pattern g
  let typescript := (← context).typescript
  let definite ← match target.label with
    | .binding _ _ => if typescript then eat .bang else pure false
    | _ => pure false
  let type ← colonType? g
  let target := if type.isAbsent then target else withType target type false
  let headEnds ← if inHead then do pure ((← atWord "in") || (← atWord "of")) else pure false
  let value ← do
    if headEnds then pure Node.absent
    else if ← eat .assign then g .assignment
    else if (← context).inDeclare then pure Node.absent
    else if kind == "const" && !inHead then do
      note .missingInitializer
      pure Node.absent
    else match target.label with
      | .binding _ _ => pure Node.absent
      | _ => failAt (← spanFrom start) .missingPatternInitializer
  return .mk (.declarator definite) (← spanFrom start) [target, value]

/-- The variables of a declaration, between commas. -/
def declarators (g : Grammar) (kind : String) (inHead : Bool) : Parse (List Node) :=
  loop ([] : List Node) fun done => do
    if (← at_ .semi) || (← atEnd) then
      note .trailingComma
      return .inr done.reverse
    let item ← declarator g kind inHead
    if ← eat .comma then return .inl (item :: done)
    return .inr (item :: done).reverse

/-- Do a value and the end of a head follow `of` or `in`, so that nothing is declared before it? -/
def headWithoutTarget (g : Grammar) : Parse Bool := do
  if !(← context).typescript then return false
  if !(← atWord "of") && !(← atWord "in") then return false
  let reads : Parse (Option Unit) := attempt do
    bump
    let _ ← g .assignment
    expect .rparen
    return some ()
  return (← lookAhead (Option.isSome <$> reads))

/-- A declaration of variables, whose first word is the current one. -/
def variableDeclaration (g : Grammar) (inHead : Bool) : Parse Node := do
  let start ← position
  let kind := ((← current?).bind Token.word?).getD "var"
  bump
  if inHead then
    if ← headWithoutTarget g then
      note (.typeSyntax "TS1123")
      return .mk (.variableDeclaration kind false) (← spanFrom start) []
  let items ← includingIn (kind != "var" || !inHead) (declarators g kind inHead)
  if !inHead then forceSemicolon g
  return .mk (.variableDeclaration kind false) (← spanFrom start) items

/-- Can `let` declare what follows it? -/
def letDeclares : Parse Bool := do
  match ← ahead? with
  | some (.punct p) => return p == .lbrace || p == .lbracket
  | some (.word name escaped) =>
    return (Token.word name escaped).isPlainWord || name == "let" || name == "yield" || name == "await"
  | _ => return false

/-- Resources that are released at the end of the block, if such a declaration starts here. -/
def usingDeclaration? (g : Grammar) (start : Nat) (awaits : Bool) : Parse (Option Node) := do
  if ← lineBreakAhead then return none
  let declares ← match ← ahead? with
    | some (.word name _) => pure !(Lex.reservedWords.contains name)
    | _ => pure false
  if !declares then return none
  bump
  let items ← declarators g "var" false
  let c ← context
  if !c.typescript then note .usingNotEnabled
  for item in items do
    match item.parts with
    | [target, value] =>
      match target.label with
      | .binding _ _ => pure ()
      | _ => note (.typeSyntax "InvalidNameInUsingDecl")
      if value.isAbsent then note (.typeSyntax "InitRequiredForUsingDecl")
    | _ => pure ()
  expectSemicolon
  return some (.mk (.variableDeclaration (if awaits then "await using" else "using") false) (← spanFrom start)
    items)

/-- The same declaration, marked as one of something that exists elsewhere. -/
def asDeclared : Node → Node
  | .mk (.functionDeclaration a b _) span parts => .mk (.functionDeclaration a b true) span parts
  | .mk (.classDeclaration _ a) span parts => .mk (.classDeclaration true a) span parts
  | .mk (.variableDeclaration kind _) span parts => .mk (.variableDeclaration kind true) span parts
  | .mk (.interface _) span parts => .mk (.interface true) span parts
  | .mk (.typeAlias _) span parts => .mk (.typeAlias true) span parts
  | .mk (.enumeration _ a) span parts => .mk (.enumeration true a) span parts
  | .mk (.moduleDeclaration _ a) span parts => .mk (.moduleDeclaration true a) span parts
  | other => other

def typeName : Parse Node := do
  match ← name with
  | .mk (.name text) span _ => return .leaf (.identifier text) span
  | other => return other

def interfaceDeclaration (g : Grammar) (start : Nat) : Parse Node := do
  let name ← typeName
  let taken := ["string", "null", "number", "object", "any", "unknown", "boolean", "bigint", "symbol",
    "void", "never", "intrinsic"]
  if let .identifier text := name.label then
    if taken.contains text then note (.typeSyntax "TS2427")
  let typeParameters ← typeParameters? g true false
  let parents ← if ← eatWord "extends" then heritageList g else pure []
  if ← atWord "extends" then
    note (.typeSyntax "TS1172")
    let _ ← many (do return !(← atEnd) && !(← at_ .lbrace)) bump
  let bodyStart ← position
  let members ← inType (typeMembers g)
  let body := Node.mk .list (← spanFrom bodyStart) members
  return .mk (.interface false) (← spanFrom start) [name, typeParameters, .list parents, body]

/-- A name for a type, whose word was passed. -/
def typeAlias (g : Grammar) (start : Nat) : Parse Node := do
  let name ← typeName
  let typeParameters ← typeParameters? g true false
  let type ← inType do
    if !(← eat .assign) then unexpectedKind "="
    g .type
  expectSemicolon
  return .mk (.typeAlias false) (← spanFrom start) [name, typeParameters, type]

/-- Go on as if a comma stood in the place of the current token. At the end of the source there is no
token to replace, and the reading breaks down. -/
def replaceByComma : Parse Unit := do
  if ← atEnd then throw .breakdown
  bump
  modify fun s =>
    { s with current := some ⟨.punct .comma, s.lastSpan, false⟩, ahead := some s.current }

def enumMember (g : Grammar) : Parse Node := do
  let start ← position
  let key ← match ← needCurrent with
    | .str _ _ => literal
    | .num raw => do
      let span ← currentSpan
      bump
      note (.typeSyntax "TS2452")
      pure (Node.leaf (.string (Decimal.displayOfLiteral raw) none) span)
    | .punct .lbracket => do
      bump
      let _ ← g .expression
      note (.typeSyntax "TS1164")
      expect .rbracket
      pure (Node.leaf (.identifier "") (← spanFrom start))
    | _ => typeName
  let value ←
    if ← eat .assign then g .assignment
    else do
      if !(← at_ .comma) && !(← at_ .rbrace) then
        replaceByComma
        note .punctuationExpected
      pure Node.absent
  return .mk .enumMember (← spanFrom start) [key, value]

def enumeration (g : Grammar) (start : Nat) (isConst : Bool) : Parse Node := do
  let name ← typeName
  expect .lbrace
  let members ← loop ([] : List Node) fun done => do
    if ← at_ .rbrace then return .inr done.reverse
    let member ← enumMember g
    if ← eat .comma then return .inl (member :: done)
    if ← at_ .rbrace then return .inr (member :: done).reverse
    note (.expected "," (← describeCurrent))
    return .inl (member :: done)
  expect .rbrace
  return .mk (.enumeration false isConst) (← spanFrom start) (name :: members)

/-- The statements of a namespace or a module between braces. -/
def moduleBlock (g : Grammar) : Parse Node :=
  within (fun c => { c with topLevel := true }) do
    let start ← position
    expect .lbrace
    let items ← many (do return !(← at_ .rbrace) && !(← atEnd)) (g (.statement true true))
    if ← atEnd then note (.expected "\x7d" "<eof>") else bump
    return .mk .moduleBlock (← spanFrom start) items

/-- A namespace, or a module with a plain name, whose word was passed. Dots in the name open one
namespace in another. -/
def namespaceDeclaration (g : Grammar) (start : Nat) : Parse Node := do
  let first ← typeName
  let more ← loop ([] : List Node) fun names => do
    if ← eat .dot then return .inl ((← typeName) :: names)
    return .inr names
  let inner ← moduleBlock g
  let stop := (← lastSpan).hi
  let body := more.foldl (fun body name => .mk .nestedNamespace ⟨name.span.lo, stop⟩ [name, body]) inner
  return .mk (.moduleDeclaration false false) ⟨start, stop⟩ [first, body]

/-- A module with a quoted name, or the global scope. -/
def ambientModule (g : Grammar) (start : Nat) : Parse Node := do
  let (global, name) ← do
    if ← atWord "global" then pure (true, ← typeName)
    else match ← needCurrent with
      | .str _ _ => do pure (false, ← literal)
      | _ => unexpected "global or a string literal"
  let body ← if ← at_ .lbrace then moduleBlock g else do
    expectSemicolon
    pure Node.absent
  return .mk (.moduleDeclaration false global) (← spanFrom start) [name, body]

/-- A type declaration that a word announces. Where `next` holds the word is still to be passed. -/
def typeDeclaration? (g : Grammar) (start : Nat) (word : String) (next : Bool) :
    Parse (Option Node) := do
  let pass : Parse Unit := if next then bump else pure ()
  match word with
  | "abstract" =>
    if next || ((← atWord "class") && !(← afterLineBreak)) then
      pass
      return some (← classDeclaration g start true true)
    return none
  | "enum" =>
    if next || (← atReference) then
      pass
      return some (← enumeration g start false)
    return none
  | "interface" =>
    if next || (← atReference) then
      pass
      return some (← interfaceDeclaration g start)
    return none
  | "module" =>
    if ← afterLineBreak then return none
    pass
    match ← needCurrent with
    | .str _ _ => return some (← ambientModule g start)
    | _ =>
      if next || (← atReference) then return some (← namespaceDeclaration g start)
      return none
  | "namespace" =>
    if next || (← atReference) then
      pass
      return some (← namespaceDeclaration g start)
    return none
  | "type" =>
    if next || (!(← afterLineBreak) && (← atReference)) then
      pass
      return some (← typeAlias g start)
    return none
  | _ => return none

/-- A declaration of something that exists elsewhere, behind the word `declare`. -/
def ambientDeclaration? (g : Grammar) (start : Nat) : Parse (Option Node) := do
  if (← context).inDeclare then note (.typeSyntax "TS1038")
  within (fun c => { c with inDeclare := true }) do
    match ← current? with
    | some (.word "function" _) => return some (← functionDeclaration g start false true)
    | some (.word "class" _) => return some (← classDeclaration g start false true)
    | some (.word "const" _) =>
      if ← aheadIsWord "enum" then
        bump
        bump
        return some (← enumeration g start true)
      return some ((← variableDeclaration g false).withSpan (← spanFrom start))
    | some (.word "var" _) | some (.word "let" _) =>
      return some ((← variableDeclaration g false).withSpan (← spanFrom start))
    | some (.word "global" _) => return some (← ambientModule g start)
    | some (.word word _) => typeDeclaration? g start word true
    | _ => return none

/-- A declaration that starts with a word which was read as a name. -/
def declarationAfterName? (g : Grammar) (word : Node) : Parse (Option Node) := do
  let start := word.span.lo
  match word.label with
  | .identifier "declare" => return (← ambientDeclaration? g start).map asDeclared
  | .identifier "global" =>
    if ← at_ .lbrace then
      let body ← moduleBlock g
      return some (.mk (.moduleDeclaration false true) (← spanFrom start) [word, body])
    return none
  | .identifier text => typeDeclaration? g start text false
  | _ => return none

end BreakpointProps.Script.Parse
