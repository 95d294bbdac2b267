import BreakpointProps.Script.Parser.Pattern

/-!
Types: their operators, members, parameters and arguments.
-/

namespace BreakpointProps.Script.Parse

/-- Items between commas, up to a closing token that is not passed. -/
def delimited (closes : Parse Bool) (item : Parse Node) : Parse (List Node) :=
  loop ([] : List Node) fun done => do
    if ← closes then return .inr done.reverse
    let node ← item
    if ← eat .comma then return .inl (node :: done)
    if ← closes then return .inr (node :: done).reverse
    expect .comma
    return .inl (node :: done)

def entityName (reservedAllowed : Bool) : Parse Node := do
  let start ← position
  let first ← name
  if let .name "void" := first.label then note .punctuationExpected
  loop first fun node => do
    if !(← eat .dot) then return .inr node
    if !(← at_ .hash) && !(← atName) then
      note .identifierExpected
      return .inr node
    let right ← if reservedAllowed then name else identifier
    return .inl (.mk .qualifiedName (← spanFrom start) [node, right])

/-- Run where a type may be conditional. -/
def afresh {α : Type} (action : Parse α) : Parse α :=
  within (fun c => { c with noConditionalTypes := false }) action

/-- Do type arguments start here? Their first one may start with an angle of its own. -/
def atTypeArguments : Parse Bool := do return (← at_ .lt) || (← at_ .shiftLeft)

/-- Pass the first of two angles that were read as one token. -/
def splitShift : Parse Unit := modify fun s =>
  { s with
    current := s.current.map fun lexeme =>
      { lexeme with token := .punct .lt, span := ⟨lexeme.span.lo + 1, lexeme.span.hi⟩ } }

/-- Type arguments between angles. After the closing angle no expression starts. -/
def typeArguments (g : Grammar) : Parse Node := do
  let start ← position
  let arguments ← inType do
    withoutScopes do
      if ← at_ .shiftLeft then splitShift else expect .lt
      delimited (at_ .gt) (afresh (g .type))
  allowExpression false
  expect .gt
  return .mk .typeArguments (← spanFrom start) arguments

/-- Type arguments, if an angle opens them on the same line. -/
def typeArguments? (g : Grammar) : Parse Node := do
  if !(← afterLineBreak) && (← at_ .lt) then inType (typeArguments g) else return .absent

/-- A type after a word or a token that announces it, or nothing without the token. -/
def typeAfter? (g : Grammar) (eats : Parse Bool) : Parse Node := inType do
  if ← eats then g .type else return .absent

def typeParameterModifiers (varianceAllowed constAllowed : Bool) : Parse (List String) :=
  loop ([] : List String) fun done => do
    let allowed := ["public", "private", "protected", "readonly", "abstract", "const", "override",
      "in", "out"]
    match ← modifier? allowed false with
    | none => return .inr done.reverse
    | some "const" =>
      if !constAllowed then note (.typeSyntax "TS1277(\"const\")")
      return .inl ("const" :: done)
    | some name =>
      if name == "in" || name == "out" then
        if !varianceAllowed then note (.typeSyntax s!"TS1274({Text.quoted name})")
        else if done.contains name then note (.typeSyntax s!"TS1030({Text.quoted name})")
        else if name == "in" && done.contains "out" then
          note (.typeSyntax "TS1029(\"in\", \"out\")")
      else note (.typeSyntax s!"TS1273({Text.quoted name})")
      return .inl (name :: done)

def typeParameter (g : Grammar) (varianceAllowed constAllowed : Bool) : Parse Node := do
  let start ← position
  let modifiers ← typeParameterModifiers varianceAllowed constAllowed
  let parameter ← inType name
  let constraint ← typeAfter? g (eatWord "extends")
  let default ← typeAfter? g (eat .assign)
  return .mk (.typeParameter modifiers) (← spanFrom start) [parameter, constraint, default]

def typeParameters (g : Grammar) (varianceAllowed constAllowed : Bool) : Parse Node :=
  inType do
    withoutScopes do
      let start ← position
      match ← current? with
      | some (.punct .lt) | some .tagStart => bump
      | _ => unexpected "< (jsx tag start)"
      let parameters ← delimited (at_ .gt) (typeParameter g varianceAllowed constAllowed)
      expect .gt
      return .mk .typeParameters (← spanFrom start) parameters

/-- Type parameters, if an angle opens them. -/
def typeParameters? (g : Grammar) (varianceAllowed constAllowed : Bool) : Parse Node := do
  if (← context).typescript && (← at_ .lt) then typeParameters g varianceAllowed constAllowed
  else return .absent

/-- The parameters of a type with a signature, and the closing parenthesis. -/
def signatureParameters (g : Grammar) : Parse (List Node) := do
  let list ← parameters g
  for parameter in list do
    if let .mk (.parameter _) _ [.mk .defaulted _ _] := parameter then
      unexpected
        "an identifier, [ for an array pattern, \x7b for an object patter or ... for a rest pattern"
  expect .rparen
  return list

def thisType : Parse Node := do
  let start ← position
  expectWord "this"
  return .leaf .thisType (← spanFrom start)

def thisPredicate (g : Grammar) (start : Nat) (asserts : Bool) (this : Node) : Parse Node := do
  let type ←
    if ← eatWord "is" then inType do
      let start ← position
      let type ← g .type
      pure (Node.mk .colonType (← spanFrom start) [type])
    else pure Node.absent
  return .mk (.typePredicate asserts) (← spanFrom start) [this, type]

/-- The type that a function returns, or what its answer says about a parameter. -/
def returnType (g : Grammar) (mark : Punct) : Parse Node := inType do
  let start ← position
  if !(← eat mark) then fail (.expected mark.text (← describeKind))
  let predicateStart ← position
  let asserts ← do
    if ← atWord "asserts" then aheadIsName else pure false
  let asserts ← if asserts then
      match ← ahead? with
      | some (.word next _) => pure (!Lex.reservedWords.contains next)
      | _ => pure false
    else pure false
  if asserts then bump
  let tests ← do
    atReference <&&> aheadIsWord "is" <&&> notM lineBreakAhead
  if !asserts && !tests then
    let type ← g .type
    return .mk .colonType (← spanFrom start) [type]
  let parameter ← name
  let type ←
    if tests then do
      bump
      let start ← position
      let type ← g .type
      pure (Node.mk .colonType (← spanFrom start) [type])
    else pure Node.absent
  let predicate := Node.mk (.typePredicate asserts) (← spanFrom predicateStart) [parameter, type]
  return .mk .colonType (← spanFrom start) [predicate]

/-- The type that a function returns, if one is given after a colon. -/
def returnType? (g : Grammar) : Parse Node := do
  if (← context).typescript && (← at_ .colon) then returnType g .colon else return .absent

def functionType (g : Grammar) (isFunction : Bool) : Parse Node := afresh do
  let start ← position
  let isAbstract ← if isFunction then pure false else eatWord "abstract"
  if !isFunction then expectWord "new"
  let typeParameters ← typeParameters? g false true
  expect .lparen
  let parameters ← signatureParameters g
  let type ← returnType g .arrow
  let label := if isFunction then Label.functionType else .constructorType isAbstract
  return .mk label (← spanFrom start) [typeParameters, .list parameters, type]

/-- Could a parameter start here? It is passed if so. -/
def skipParameterStart (g : Grammar) : Parse Bool := do
  let _ ← eatModifier
  if ← atName then
    bump
    return true
  if (← at_ .lbrace) || (← at_ .lbracket) then
    let read : Parse Bool := do
      let _ ← pattern g
      return true
    return (← attempt (some <$> read)).getD false
  return false

def startsFunctionType (g : Grammar) : Parse Bool := lookAhead do
  bump
  if (← at_ .rparen) || (← at_ .ellipsis) then return true
  if ← skipParameterStart g then
    match ← current? with
    | some (.punct p) =>
      if [.colon, .comma, .question, .assign].contains p then return true
      if p == .rparen then
        bump
        return ← at_ .arrow
      return false
    | _ => return false
  return false

def memberEnd : Parse Unit := do
  if !(← eat .comma) then expectSemicolon

/-- The key of a member of a type, and whether it is computed. -/
def signatureKey (g : Grammar) : Parse (Node × Bool) := do
  if ← eat .lbracket then
    let key ← g .assignment
    expect .rbracket
    return (key, true)
  within (fun c => { c with inPropertyName := true }) do
    match ← current? with
    | some (.num _) | some (.str _ _) => return (← literal, false)
    | some (.punct .hash) =>
      let key ← privateName
      note (.typeSyntax "PrivateNameInInterface")
      return (key, false)
    | _ => return (← name, false)

def indexSignature? (g : Grammar) (start : Nat) (modifiers : List String) : Parse (Option Node) := do
  if !(← at_ .lbracket) then return none
  let starts ← lookAhead do
    bump
    if ← atReference then
      bump
      return (← at_ .colon) || (← at_ .comma)
    return false
  if !starts then return none
  expect .lbracket
  let parameterStart ← position
  let parameter ← identifierOfName
  let typeStart ← position
  if ← eat .comma then note (.typeSyntax "TS1096") else expect .colon
  let type ← inType do
    let type ← g .type
    pure (Node.mk .colonType (← spanFrom typeStart) [type])
  let target := Node.mk (.binding parameter false) (← spanFrom parameterStart) [type]
  expect .rbracket
  let type ← colonType? g
  memberEnd
  return some (.mk (.indexSignature modifiers) (← spanFrom start) [.list [target], type])
where
  identifierOfName : Parse String := do
    match (← name).label with
    | .name text => return text
    | _ => return ""

def signature (g : Grammar) (constructs : Bool) : Parse Node := do
  let start ← position
  if constructs then expectWord "new"
  let typeParameters ← typeParameters? g false true
  expect .lparen
  let parameters ← signatureParameters g
  let type ← returnType? g
  memberEnd
  let label := if constructs then Label.constructSignature else .callSignature
  return .mk label (← spanFrom start) [typeParameters, .list parameters, type]

/-- A getter or a setter in a type. -/
def accessorSignature? (g : Grammar) (readonly : Bool) : Parse (Option Node) := attempt do
  let start ← position
  if readonly then fail (.typeSyntax "GetterSetterCannotBeReadonly")
  let gets ← eatWord "get"
  if !gets then expectWord "set"
  let (key, computed) ← signatureKey g
  expect .lparen
  if gets then
    expect .rparen
    let type ← colonType? g
    memberEnd
    return some (.mk (.getterSignature computed) (← spanFrom start) [key, type])
  let parameters ← signatureParameters g
  memberEnd
  match parameters with
  | [] => fail (.typeSyntax "SetterParamRequired")
  | parameter :: _ =>
    return some (.mk (.setterSignature computed) (← spanFrom start) [key, parameter])

def typeMember (g : Grammar) : Parse Node := do
  if (← at_ .lparen) || (← at_ .lt) then return ← signature g false
  if ← atWord "new" then
    if ← lookAhead (do bump; return (← at_ .lparen) || (← at_ .lt)) then return ← signature g true
  let start ← position
  let readonly := (← modifier? ["readonly"] false).isSome
  if let some node ← indexSignature? g start (if readonly then ["readonly"] else []) then
    return node
  if let some node ← accessorSignature? g readonly then return node
  let (key, computed) ← signatureKey g
  let optional ← eat .question
  if (← at_ .lparen) || (← at_ .lt) then
    if readonly then fail (.typeSyntax "ReadOnlyMethod")
    let typeParameters ← typeParameters? g false true
    expect .lparen
    let parameters ← signatureParameters g
    let type ← returnType? g
    memberEnd
    return .mk (.methodSignature optional computed) (← spanFrom start)
      [key, typeParameters, .list parameters, type]
  let type ← colonType? g
  memberEnd
  return .mk (.propertySignature readonly optional computed) (← spanFrom start) [key, type]

def typeMembers (g : Grammar) : Parse (List Node) := do
  expect .lbrace
  let members ← many (do return !(← at_ .rbrace)) (typeMember g)
  expect .rbrace
  return members

def startsMappedType : Parse Bool := lookAhead do
  bump
  if (← eat .plus) || (← eat .minus) then return ← atWord "readonly"
  let _ ← eatWord "readonly"
  if !(← eat .lbracket) then return false
  if !(← atReference) then return false
  bump
  atWord "in"

def mappedType (g : Grammar) : Parse Node := do
  let start ← position
  expect .lbrace
  let sign : Parse (Option String) := do
    if ← eat .plus then return some "+"
    if ← eat .minus then return some "-"
    return none
  let readonly ← match ← sign with
    | some s => do
      expectWord "readonly"
      pure (some s)
    | none => do pure (if ← eatWord "readonly" then some "" else none)
  expect .lbracket
  let parameter ← name
  let constraint ← inType do
    if !(← eatWord "in") then unexpectedKind "in"
    g .type
  let nameType ← if ← eatWord "as" then g .type else pure Node.absent
  expect .rbracket
  let optional ← match ← sign with
    | some s => do
      expect .question
      pure (some s)
    | none => do pure (if ← eat .question then some "" else none)
  let type ← typeAfter? g (eat .colon)
  expectSemicolon
  expect .rbrace
  return .mk (.mappedType readonly optional) (← spanFrom start) [parameter, constraint, nameType, type]

def tupleLabel? : Parse (Option Node) := attempt do
  let start ← position
  let isRest ← eat .ellipsis
  let nameStart ← position
  let text ← match (← name).label with
    | .name text => pure text
    | _ => pure ""
  let optional ← eat .question
  let span ← spanFrom nameStart
  expect .colon
  let target := Node.mk (.binding text optional) span [.absent]
  let whole ← spanFrom start
  return some (if isRest then .mk (.rest whole.lo) whole [target, .absent] else target)

def tupleElement (g : Grammar) : Parse Node := do
  let start ← position
  let label ← tupleLabel?
  let type ←
    if ← eat .ellipsis then do
      let type ← g .type
      pure (Node.mk .restType (← spanFrom start) [type])
    else do
      let type ← g .type
      if ← eat .question then pure (Node.mk .optionalType (← spanFrom start) [type]) else pure type
  return .mk .tupleElement (← spanFrom start) [.ofOption label, type]

def tupleType (g : Grammar) : Parse Node := do
  let start ← position
  expect .lbracket
  let elements ← delimited (at_ .rbracket) (tupleElement g)
  expect .rbracket
  let isLabelled (wanted : Label → Bool) (element : Node) : Bool :=
    wanted ((element.parts.getLast?.getD .absent).label)
  let isOptional := isLabelled fun l => match l with
    | .optionalType => true
    | _ => false
  let isRest := isLabelled fun l => match l with
    | .restType => true
    | _ => false
  let afterOptional := elements.dropWhile (!isOptional ·)
  if afterOptional.any fun e => !isOptional e && !isRest e then
    fail (.typeSyntax "TsRequiredAfterOptional")
  return .mk .tupleType (← spanFrom start) elements

def importOptions (g : Grammar) : Parse Node := do
  let start ← position
  bump
  expectWord "with"
  expect .colon
  let attributes ← g .object
  let _ ← eat .comma
  expect .rbrace
  return .mk .importOptions (← spanFrom start) [attributes]

def importType (g : Grammar) : Parse Node := do
  let start ← position
  bump
  expect .lparen
  let argument ← match ← needCurrent with
    | .str _ _ => literal
    | _ => do
      let span ← currentSpan
      bump
      note (.typeSyntax "TS1141")
      pure (Node.leaf (.string "" (some "\"\"")) span)
  let options ← do
    if (← eat .comma) && (← at_ .lbrace) then importOptions g else pure Node.absent
  expect .rparen
  let qualifier ← if ← eat .dot then entityName false else pure Node.absent
  let arguments ← if ← at_ .lt then inType (typeArguments g) else pure Node.absent
  return .mk .importType (← spanFrom start) [argument, options, qualifier, arguments]

def typeQuery (g : Grammar) : Parse Node := do
  let start ← position
  bump
  let value ← if ← atWord "import" then importType g else entityName true
  let arguments ← typeArguments? g
  return .mk .typeQuery (← spanFrom start) [value, arguments]

def typeReference (g : Grammar) : Parse Node := do
  let start ← position
  let modified ← eatModifier
  let reference ← entityName true
  let arguments ← typeArguments? g
  if modified then note (.typeSyntax "TS2369")
  return .mk .typeReference (← spanFrom start) [reference, arguments]

def templateText (tagged : Bool) : Parse Node := do
  match ← needCurrent with
  | .template value raw =>
    let start ← position
    bump
    let cooked ← match value with
      | .ok text => pure (some text)
      | .error (fault, place) => if tagged then pure none else stopAt place fault
    return .leaf (.templateText raw cooked) (← spanFrom start)
  | _ => unexpected "template token"

/-- The parts of a template after its opening mark, and the closing mark. -/
def templateParts (tagged : Bool) (item : Parse Node) : Parse (List Node) := do
  let first ← templateText tagged
  let parts ← loop [first] fun done => do
    if ← at_ .backquote then return .inr done.reverse
    expect .dollarBrace
    let inner ← item
    expect .rbrace
    let text ← templateText tagged
    return .inl (text :: inner :: done)
  expect .backquote
  return parts

/-- The types that are named by a word of their own. -/
def keywordTypes : List String :=
  ["void", "null", "any", "boolean", "bigint", "never", "number", "object", "string", "symbol",
   "unknown", "undefined", "intrinsic"]

/-- A type that no operator stands in front of. -/
def primaryType (g : Grammar) : Parse Node := do
  let start ← position
  let literalType : Parse Node := do
    let value ← literal
    return .mk .literalType (← spanFrom start) [value]
  let refuse : Parse Node := unexpected
    "an identifier, void, yield, null, await, break, a string literal, a numeric literal, true, false, \x60, -, import, this, typeof, \x7b, [, ("
  match ← needCurrent with
  | .word "true" _ | .word "false" _ | .str _ _ | .num _ | .bigint _ => literalType
  | .word "import" _ => importType g
  | .word "typeof" _ => typeQuery g
  | .word "this" _ =>
    let this ← thisType
    if !(← afterLineBreak) && (← atWord "is") then thisPredicate g start false this
    else return this
  | .word text _ =>
    if ← pure (text == "asserts") <&&> aheadIsWord "this" then
      bump
      let this ← thisType
      return ← thisPredicate g start true this
    if keywordTypes.contains text && !(← aheadIs .dot) then
      bump
      return .leaf (.keywordType text) (← spanFrom start)
    if keywords.contains text && !(["void", "yield", "await", "break", "let"].contains text) then
      refuse
    else typeReference g
  | .punct .minus =>
    bump
    match ← needCurrent with
    | .num raw =>
      let span ← currentSpan
      bump
      return .mk .literalType (← spanFrom start) [.leaf (.number ("-" ++ raw)) span]
    | .bigint raw =>
      let span ← currentSpan
      bump
      return .mk .literalType (← spanFrom start) [.leaf (.bigint ("-" ++ raw)) span]
    | _ => unexpected "numeric literal or bigint literal"
  | .punct .lbrace =>
    if ← startsMappedType then afresh (mappedType g)
    else
      let members ← afresh (typeMembers g)
      return .mk .typeLiteral (← spanFrom start) members
  | .punct .lbracket => afresh (tupleType g)
  | .punct .lparen =>
    bump
    let inner ← afresh (g .type)
    expect .rparen
    return .mk .parenthesizedType (← spanFrom start) [inner]
  | .punct .backquote =>
    bump
    let parts ← templateParts false (afresh (g .type))
    let span ← spanFrom start
    return .mk .literalType span [.mk .templateType span parts]
  | _ => refuse

def arrayType (g : Grammar) : Parse Node := do
  let first ← primaryType g
  loop first fun node => do
    if ← afterLineBreak then return .inr node
    if !(← eat .lbracket) then return .inr node
    if ← eat .rbracket then return .inl (.mk .arrayType (← spanFrom node.span.lo) [node])
    let index ← afresh (g .type)
    expect .rbracket
    return .inl (.mk .indexedType (← spanFrom node.span.lo) [node, index])

def inferType (g : Grammar) : Parse Node := do
  let start ← position
  bump
  let parameter ← name
  let constraint ← attempt do
    expectWord "extends"
    let type ← g .nonConditionalType
    if (← context).noConditionalTypes || !(← at_ .question) then return some type
    return none
  let span ← spanFrom parameter.span.lo
  return .mk .inferType (← spanFrom start)
    [.mk (.typeParameter []) span [parameter, .ofOption constraint, .absent]]

/-- A type with the operators in front of it. -/
def operandType (g : Grammar) : Parse Node := do
  let start ← position
  match ← needCurrent with
  | .word text _ =>
    if text == "keyof" || text == "unique" || text == "readonly" then
      bump
      let inner ← g .typeOperand
      return .mk (.typeOperator text) (← spanFrom start) [inner]
    if text == "infer" then inferType g else arrayType g
  | _ => arrayType g

/-- Types joined by an operator. One such operator may stand in front. -/
def joinedTypes (operator : Punct) (label : Label) (item : Parse Node) : Parse Node := do
  let start ← position
  let _ ← eat operator
  let first ← item
  if !(← at_ operator) then return first
  let more ← many (at_ operator) do
    bump
    item
  return .mk label (← spanFrom start) (first :: more)

def nonConditionalType (g : Grammar) : Parse Node := do
  if ← at_ .lt then return ← functionType g true
  if ← at_ .lparen then
    if ← startsFunctionType g then return ← functionType g true
  if ← atWord "new" then return ← functionType g false
  if ← atWord "abstract" then
    if ← aheadIsWord "new" then return ← functionType g false
  joinedTypes .bar .unionType (joinedTypes .amp .intersectionType (g .typeOperand))

def type (g : Grammar) : Parse Node := do
  let start ← position
  let checked ← g .nonConditionalType
  if (← context).noConditionalTypes || (← afterLineBreak) then return checked
  if !(← eatWord "extends") then return checked
  let extended ← within (fun c => { c with noConditionalTypes := true }) (g .nonConditionalType)
  expect .question
  let yes ← afresh (g .type)
  expect .colon
  let no ← afresh (g .type)
  return .mk .conditionalType (← spanFrom start) [checked, extended, yes, no]

end BreakpointProps.Script.Parse
