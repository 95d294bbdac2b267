import BreakpointProps.Script.Parser.Function
import BreakpointProps.Script.Parser.Markup
import BreakpointProps.Script.Parser.Target

/-!
Expressions.
-/

namespace BreakpointProps.Script.Parse

/-- Run where neither a conditional expression nor a member access is open. -/
def nested {α : Type} (action : Parse α) : Parse α :=
  within (fun c => { c with includeIn := true, joinsAngles := false }) action

/-- An expression without commas, or one that is spread. -/
def spreadable (g : Grammar) : Parse Node := do
  let start ← position
  if ← eat .ellipsis then
    let inner ← attempting (← spanFrom start) "An expression should follow '...'" (g .assignment)
    return .mk .spread (← spanFrom start) [inner]
  g .assignment

/-- The arguments of a call between parentheses. What a module is loaded by takes no comma after the
last one, unless types are read, where options may follow. -/
def arguments (g : Grammar) (loads : Bool) : Parse Node :=
  within (fun c => { c with expectsColon := false }) do
    let start ← position
    expect .lparen
    let items ← loop ([] : List Node) fun done => do
      if (← atEnd) || (← at_ .rparen) then return .inr done.reverse
      if !done.isEmpty then
        expect .comma
        if ← at_ .rparen then
          if loads && !(← context).typescript then
            failAt (← spanFrom start) .trailingCommaInImport
          return .inr done.reverse
      return .inl ((← nested (spreadable g)) :: done)
    expect .rparen
    return .list items

/-- Remember that a comma is followed by nothing in the array or object that starts there. -/
def rememberTrailingComma (start : Nat) : Parse Unit :=
  modify fun s => { s with trailingCommas := start :: s.trailingCommas }

def arrayLiteral (g : Grammar) : Parse Node := do
  let start ← position
  bump
  let elements ← loop ([] : List Node) fun done => do
    if (← atEnd) || (← at_ .rbracket) then return .inr done.reverse
    if ← eat .comma then return .inl (.absent :: done)
    let element ← nested (spreadable g)
    if !(← at_ .rbracket) then
      expect .comma
      if ← at_ .rbracket then rememberTrailingComma start
    return .inl (element :: done)
  expect .rbracket
  return .mk .array (← spanFrom start) elements

/-- A template after its opening mark is seen. -/
def template (g : Grammar) (tagged : Bool) : Parse Node := do
  let start ← position
  bump
  let parts ← templateParts tagged (nested (g .expression))
  return .mk .template (← spanFrom start) parts

def objectMethod (g : Grammar) (start : Nat) (key : Node) (isAsync generator : Bool) : Parse Node := do
  let rest ← within (fun c => { c with directSuperAllowed := true, inClassField := false })
    (functionRest g isAsync generator (parameters g))
  return .mk (.methodProperty isAsync generator) (← spanFrom start) (key :: rest)

/-- A getter or a setter of an object after its key. -/
def objectAccessor (g : Grammar) (start : Nat) (key : Node) (gets : Bool) : Parse Node := do
  let list := if gets then getterParameters g else setterParameters g
  let rest ← within (fun c => { c with directSuperAllowed := true, inClassField := false })
    (functionRest g false false list)
  match rest with
  | [_, .mk .list _ parameters, _, body] =>
    let span ← spanFrom start
    if gets then return .mk .getterProperty span [key, body]
    let (this, parameter) := match parameters with
      | this :: parameter :: _ => (this, parameter)
      | parameters => (Node.absent, Node.ofOption parameters.head?)
    return .mk .setterProperty span [key, this, parameter, body]
  | _ => fail .getterWithParameters

/-- Can this token follow the key of a property where types are recognised? -/
def canFollowKey (key : Node) : Parse Bool := do
  match ← current? with
  | some (.word _ _) | some (.str _ _) | some (.num _) => return true
  | some (.punct p) =>
    if [.lparen, .lbracket, .colon, .comma, .question, .assign, .star, .lt].contains p then
      return true
    return p == .rbrace && (match key.label with
      | .name _ => true
      | _ => false)
  | _ => return false

def objectProperty (g : Grammar) : Parse Node := do
  let start ← position
  if ← eat .ellipsis then
    let inner ← nested (g .assignment)
    return .mk .spread (← spanFrom start) [inner]
  if ← eat .star then
    let key ← propertyKey g
    return ← objectMethod g start key false true
  let modified ← eatModifier
  let key ← propertyKey g
  let typescript := (← context).typescript
  if typescript && !(← canFollowKey key) then
    note .punctuationExpected
    return .mk .keyValue (← spanFrom start) [key, .leaf .invalid (← spanFrom start)]
  if ← eat .colon then
    let value ← nested (g .assignment)
    return .mk .keyValue ⟨key.span.lo, value.span.hi⟩ [key, value]
  if (← at_ .lparen) || (typescript && (← at_ .lt)) then
    return ← objectMethod g start key false false
  match key.label with
  | .name text =>
    if ← eat .question then note (.typeSyntax "TS1162")
    if (← at_ .assign) || (← at_ .comma) || (← at_ .rbrace) then
      if ← eat .assign then
        let value ← nested (g .assignment)
        return .mk .assignedShorthand (← spanFrom start) [key, value]
      return .leaf (.shorthand text) key.span
    if text == "get" || text == "set" || text == "async" then
      if modified then note (.typeSyntax "TS1042")
      let generator ← if text == "async" then eat .star else pure false
      let key ← propertyKey g
      if text == "async" then return ← objectMethod g start key true generator
      return ← objectAccessor g start key (text == "get")
    if typescript then
      unexpected "... , *,  (, [, :, , ?, =, an identifier, public, protected, private, readonly, <."
    else unexpected "... , *,  (, [, :, , ?, = or an identifier"
  | _ => unexpected "identifier"

def objectLiteral (g : Grammar) : Parse Node :=
  within (fun c => { c with expectsColon := false }) do
    let start ← position
    bump
    let properties ← loop ([] : List Node) fun done => do
      if ← eat .rbrace then return .inr done.reverse
      let property ← objectProperty g
      if !(← at_ .rbrace) then
        expect .comma
        if ← at_ .rbrace then rememberTrailingComma start
      return .inl (property :: done)
    return .mk .object (← spanFrom start) properties

/-- The value of an assignment, if an operator follows. -/
def finishAssignment (g : Grammar) (start : Nat) (left : Node) : Parse Node := do
  match ← current? with
  | some (.punct p) =>
    if !p.isAssignment then return left
    let target ←
      if p == .assign then toPattern .assigned left
      else do
        if !isSimpleTarget left then
          note (if (← context).typescript then .invalidAssignmentTarget else .notAssignable)
        pure (bindingOf left)
    if !isTarget target then failAt target.span .noAssignmentTarget
    bump
    let right ← g .assignment
    return .mk (.assignment p.text) (← spanFrom start) [target, right]
  | _ => return left

/-- Is the expression an arrow function? Nothing can be appended to one. -/
def isArrow (node : Node) : Bool := match node.label with
  | .arrow _ => true
  | _ => false

/-- Is the expression a mix of `&&` or `||`? -/
def isLogical (node : Node) : Bool := match node.label with
  | .binary op => op == "&&" || op == "||"
  | _ => false

/-- Does the expression join its operands with `??`? -/
def isNullish (node : Node) : Bool := match node.label with
  | .binary op => op == "??"
  | _ => false

/-- The binary operator at this place and how tightly it binds. -/
def binaryOperator? : Parse (Option (String × Nat)) := do
  match ← current? with
  | some (.word "in" _) => return if (← context).includeIn then some ("in", 7) else none
  | some (.word "instanceof" _) => return some ("instanceof", 7)
  | some (.punct p) => return if p.isBinary then some (p.text, p.precedence) else none
  | _ => return none

/-- The operators after `left` that bind more tightly than `least`, with their operands. The first
argument bounds the number of operators. -/
def binaryTail (g : Grammar) : Nat → Nat → Node → Parse Node
  | 0, _, _ => throw .breakdown
  | n + 1, least, left => do
    if (← context).typescript && !(← afterLineBreak) then
      if least < 7 && (← atWord "as") then
        if ← aheadIsWord "const" then
          bump
          bump
          return ← binaryTail g n least (.mk .asConst (← spanFrom left.span.lo) [left])
        let type ← inType do
          bump
          g .type
        return ← binaryTail g n least (.mk .asExpression (← spanFrom left.span.lo) [left, type])
      if least < 7 && (← atWord "satisfies") then
        let type ← inType do
          bump
          g .type
        return ← binaryTail g n least
          (.mk .satisfiesExpression (← spanFrom left.span.lo) [left, type])
    match ← binaryOperator? with
    | none => return left
    | some (op, precedence) =>
      if precedence ≤ least then return left
      bump
      if op == "**" then
        match left.label with
        | .unary _ | .awaitExpression => fail (.unaryBeforePower left.outline left.span)
        | _ => pure ()
      let first ← g .unary
      let right ← binaryTail g n (if op == "**" then precedence - 1 else precedence) first
      if op == "??" && (isLogical left || isLogical right) then note .nullishMixedWithLogical
      let node := Node.mk (.binary op) ⟨left.span.lo, right.span.hi⟩ [left, right]
      if isLogical node && isNullish left then note .nullishMixedWithLogical
      binaryTail g n least node

def operatorBound : Parse Nat := return (← get).lexer.size + 8

/-- Operands with binary operators between them. -/
def binaryExpression (g : Grammar) : Parse Node := do
  let size ← operatorBound
  let s ← get
  match g .unary s with
  | .error .breakdown t => fun _ => .error .breakdown t
  | .error (.fault fault place) t =>
    set t
    match ← current? with
    | none => stopAtEnd
    | some _ =>
      if (← binaryOperator?).isSome then
        note .expressionExpected
        let here ← currentSpan
        binaryTail g size 0 (.leaf .invalid here)
      else stopAt place fault
  | .ok left t =>
    set t
    if isArrow left then return left
    binaryTail g size 0 left

/-- A binary expression, or a choice between two results. -/
def conditionalExpression (g : Grammar) : Parse Node := do
  let start ← position
  let test ← binaryExpression g
  if isArrow test then return test
  if !(← eat .question) then return test
  let yes ← within
    (fun c => { c with inCondition := true, expectsColon := true, includeIn := true }) (g .assignment)
  expect .colon
  let no ← within (fun c => { c with inCondition := true, expectsColon := false }) (g .assignment)
  return .mk .conditional ⟨start, no.span.hi⟩ [test, yes, no]

def startsExpression : Parse Bool := do
  match ← current? with
  | none => return true
  | some (.word name _) =>
    return !keywords.contains name || ["await", "function", "throw", "new", "this", "super", "class",
      "import", "yield", "typeof", "void", "delete", "let"].contains name
  | some (.punct p) =>
    return [.bang, .lparen, .lbrace, .lbracket, .backquote, .dollarBrace, .plus, .minus, .increment,
      .decrement, .tilde, .slash, .slashAssign, .lt, .hash, .at].contains p
  | some (.str _ _) | some (.num _) | some (.bigint _) | some (.regexp _ _) | some .tagStart
  | some (.jsxText _) | some (.template _ _) => return true
  | _ => return false

/-- What a generator hands out. -/
def yieldExpression (g : Grammar) : Parse Node := do
  let start ← position
  bump
  if (← context).inParameters && !(← context).returnAllowed then
    failAt (← lastSpan) .yieldParameter
  if (← atSemicolon) || (!(← at_ .star) && !(← startsExpression)) then
    return .mk (.yieldExpression false) (← spanFrom start) [.absent]
  let delegates ← eat .star
  let value ← attempting (← spanFrom start) "Tried to parse an argument of yield" (g .assignment)
  return .mk (.yieldExpression delegates) (← spanFrom start) [value]

/-- An expression without commas that does not start with type parameters. -/
def plainAssignment (g : Grammar) : Parse Node := do
  if (← context).inGenerator && (← atWord "yield") then return ← yieldExpression g
  let start ← position
  let token ← needCurrent
  let mayBeArrow := token.isPlainWord || token.isWord "yield" || token.isPunct .lparen
  modify fun s => { s with arrowStart := if mayBeArrow then some start else none }
  let left ← conditionalExpression g
  if isArrow left then return left
  match left.label with
  | .conditional | .binary _ | .unary _ | .update _ _ => return left
  | _ => finishAssignment g start left

/-- An arrow function with type parameters. -/
def genericArrow? (g : Grammar) : Parse (Option Node) :=
  within (fun c => { c with expectsColon := false }) <| attempt do
    if let some .tagStart ← current? then
      if (← get).lexer.scopes.head? == some .openingTag then dropScopes 2
    let typeParameters ← typeParameters g false true
    match ← plainAssignment g with
    | .mk (.arrow isAsync) span (_ :: rest) =>
      return some (.mk (.arrow isAsync) ⟨typeParameters.span.lo, span.hi⟩ (typeParameters :: rest))
    | _ => unexpected "("

def assignmentExpression (g : Grammar) : Parse Node := do
  let c ← context
  if c.typescript && c.jsx then
    if let some .tagStart ← current? then
      if let some node ← attempt (some <$> plainAssignment g) then return node
      dropScopes 2
  if c.typescript then
    let opens ← match ← current? with
      | some .tagStart | some (.punct .lt) => pure true
      | _ => pure false
    if opens then
      let named ← match ← ahead? with
        | some (.word _ _) | some (.jsxName _) => pure true
        | _ => pure false
      if named then
        if let some node ← genericArrow? g then return node
  plainAssignment g

/-- Expressions with commas between them. -/
def expression (g : Grammar) : Parse Node := do
  let first ← g .assignment
  if !(← at_ .comma) then return first
  let more ← many (at_ .comma) do
    bump
    g .assignment
  return .mk .sequence (← spanFrom first.span.lo) (first :: more)

/-- The body of an arrow function: a block or an expression. -/
def arrowBody (g : Grammar) (isAsync : Bool) : Parse Node :=
  inBody isAsync false true do
    if ← at_ .lbrace then block g else g .assignment

def arrowAfter (g : Grammar) (start : Nat) (isAsync : Bool) (parameters : List Node)
    (type : Node) : Parse Node := do
  let body ← arrowBody g isAsync
  checkStrictMode parameters body
  return .mk (.arrow isAsync) (← spanFrom start) [.absent, .list parameters, type, body]

/-- Note the names among parameters that cannot be bound. The first argument bounds the depth. -/
def checkParameter : Nat → Node → Parse Unit
  | 0, _ => pure ()
  | n + 1, node => match node with
    | .mk (.binding name _) _ _ => do
      if name == "eval" || name == "arguments" then note .reservedBinding
    | .mk (.arrayPattern _) _ parts | .mk (.objectPattern _) _ parts => parts.forM (checkParameter n)
    | .mk .keyPattern _ [_, inner] => checkParameter n inner
    | .mk .defaulted _ (inner :: _) | .mk (.rest _) _ (inner :: _) => checkParameter n inner
    | _ => pure ()

/-- Is the item a pattern already, rather than an expression that might become one? -/
def isPattern (item : Node) : Bool := match item.label with
  | .binding _ _ | .arrayPattern _ | .objectPattern _ | .defaulted | .rest _ => true
  | _ => false

/-- An item between parentheses as a parameter of an arrow function. -/
def itemAsParameter (trailing isLast : Bool) (item : Node) : Parse Node := do
  match item with
  | .mk .spread span [inner] =>
    if !isLast then
      note .restNotLast
      return .leaf .invalid span
    if let .assignment _ := inner.label then note .defaultInRest
    if trailing then note .trailingCommaAfterRest
    return .mk (.rest span.lo) inner.span [← toPattern .parameter inner, .absent]
  | .mk (.rest _) _ _ =>
    if !isLast then note .restNotLast
    else if trailing then note .trailingCommaAfterRest
    return item
  | _ => if isPattern item then return item else toPattern .parameter item

/-- The items between parentheses as the parameters of an arrow function. -/
def itemsAsParameters (items : List Node) (trailing : Bool) : Parse (List Node) := do
  let parameters ← convertItems (itemAsParameter trailing) items
  let size := (← get).lexer.size
  parameters.forM (checkParameter size)
  return parameters

/-- What follows the pattern of a parameter between parentheses. -/
def finishParameter (g : Grammar) (start : Nat) (spread optional : Bool) (item : Node) :
    Parse Node := do
  let target ← toPattern .parameter item
  let target := if optional then withType target .absent true else target
  let target ← if spread then pure (Node.mk (.rest start) (← spanFrom start) [target, .absent]) else pure target
  let type ← colonType? g
  let target := if type.isAbsent then target else withType target type false
  let target := match target.label with
    | .rest _ => target
    | _ => if type.isAbsent then target else target.withSpan ⟨start, type.span.hi⟩
  if ← eat .assign then
    let right ← g .assignment
    return .mk .defaulted (← spanFrom start) [target, right]
  return target

/-- An item between the parentheses of an expression or of the head of an arrow function. -/
def parenthesizedItem (g : Grammar) : Parse Node := do
  let typescript := (← context).typescript
  let modifierStart ← position
  modify fun s => { s with arrowStart := some modifierStart }
  let modified ← eatModifier
  let start ← position
  let named ← do
    if !typescript then pure false
    else if ← atReference then pure true
    else if ← at_ .ellipsis then do
      match ← ahead? with
      | some (.word name _) => pure (!Lex.reservedWords.contains name)
      | _ => pure false
    else pure false
  let (spread, item) ← do
    if named then
      if ← eat .ellipsis then
        pure (true, ← includingIn true (binaryExpression g))
      else
        let item ← binaryExpression g
        pure (false, ← finishAssignment g start item)
    else if ← eat .ellipsis then
      let item ← attempting (← spanFrom start) "An expression should follow '...'"
        (includingIn true (g .assignment))
      pure (true, item)
    else pure (false, ← includingIn true (g .assignment))
  let whole : Parse Node := do
    if spread then return .mk .spread (← spanFrom start) [item] else return item
  if !typescript then return ← whole
  let mut optional := false
  let mut item := item
  if ← at_ .question then
    let follows ← match ← ahead? with
      | some (.punct p) => pure ([Punct.comma, .colon, .rparen, .assign].contains p)
      | _ => pure false
    if follows then
      bump
      if spread then note (.typeSyntax "TS1047")
      match item.label with
      | .identifier _ => optional := true
      | _ => failAt item.span (.typeSyntax "TsBindingPatCannotBeOptional")
    else if !spread then
      bump
      let enter (colon : Bool) (c : Context) : Context :=
        { c with inCondition := true, expectsColon := colon, includeIn := true }
      let yes ← within (enter true) (g .assignment)
      expect .colon
      let no ← within (enter false) (g .assignment)
      item := .mk .conditional ⟨modifierStart, no.span.hi⟩ [item, yes, no]
  let typable := match item.label with
    | .identifier _ | .array | .object => true
    | _ => false
  let result ← do
    if optional || (typable && (← at_ .colon)) then finishParameter g start spread optional item
    else if spread then pure (Node.mk .spread (← spanFrom start) [item])
    else pure item
  if modified then note (.typeSyntax "TS2369")
  return result

/-- Can the first item between parentheses be the parameter of an arrow function that follows it? -/
def isNamedItem (item : Node) : Bool :=
  match item with
  | .mk .spread _ [inner] => isName inner
  | other => isName other
where
  /-- Is the node a name? -/
  isName (node : Node) : Bool := match node.label with
    | .identifier _ | .binding _ _ => true
    | _ => false

/-- The items between parentheses, and whether a comma stands after the last. An arrow right behind the
first item is passed; where that item is a name, an arrow function with it as its parameter becomes
the next item. -/
def parenthesizedItems (g : Grammar) : Parse (List Node × Bool) := do
  expect .lparen
  let (items, trailing) ← loop (([] : List Node), false) fun (done, trailing) => do
    if (← atEnd) || (← at_ .rparen) then return .inr (done.reverse, trailing)
    let start ← position
    let item ← parenthesizedItem g
    let arrow? ← do
      if !done.isEmpty then pure none
      else if !(← eat .arrow) then pure none
      else if !isNamedItem item then pure none
      else do
        let parameters ← itemsAsParameters [item] false
        some <$> arrowAfter g start false parameters .absent
    let mut trailing := false
    if !(← at_ .rparen) then
      expect .comma
      trailing := ← at_ .rparen
    return .inl (arrow?.toList ++ item :: done, trailing)
  expect .rparen
  return (items, trailing)

/-- Note an assignment to a shorthand property in an object that turned out to be no pattern. -/
def checkObject (node : Node) : Parse Unit := do
  if let .mk .object _ properties := node then
    for property in properties do
      if let .assignedShorthand := property.label then note .assignmentInObject

/-- An arrow function whose return type stands in front of a colon of a conditional expression. -/
def arrowInCondition? (g : Grammar) (start : Nat) (isAsync expectsColon : Bool) (items : List Node) :
    Parse (Option Node) := attempt do
  let type ← returnType g .colon
  expect .arrow
  let parameters ← itemsAsParameters items false
  let node ← arrowAfter g start isAsync parameters type
  if expectsColon && !(← at_ .colon) then unexpected "fail"
  return some node

/-- A parenthesised expression, an arrow function, or a call of `async`. -/
def parenthesizedOrArrow (g : Grammar) (canBeArrow : Bool) (asyncSpan : Option Span) : Parse Node := do
  let start ← match asyncSpan with
    | some span => pure span.lo
    | none => position
  let isAsync := asyncSpan.isSome
  let (items, trailing) ← within (fun c =>
    { c with expectsColon := false, includeIn := true, joinsAngles := false }) (parenthesizedItems g)
  let hasPattern := items.any isPattern
  let c ← context
  if c.typescript && c.inCondition && (← at_ .colon) then
    if let some node ← arrowInCondition? g start isAsync c.expectsColon items then return node
  let type ←
    if !c.expectsColon && c.typescript && (← at_ .colon) then
      Node.ofOption <$> attempt do
        let type ← returnType g .colon
        if ← at_ .arrow then return some type else return none
    else pure Node.absent
  if hasPattern || !type.isAbsent || (← at_ .arrow) then
    if ← afterLineBreak then fail .lineBreakBeforeArrow
    if !canBeArrow then fail .arrowNotAllowed
    expect .arrow
    let parameters ← itemsAsParameters items trailing
    let node ← arrowAfter g start isAsync parameters type
    if let .mk _ _ [_, _, _, .mk .block _ _] := node then
      if (← current?).any Token.isBinary then
        note .punctuationExpected
        let size ← operatorBound
        let joined ← binaryTail g size 0 node
        if !(← atSemicolon) then note .punctuationExpected
        return joined
    return node
  items.forM fun item => do
    match item with
    | .mk .spread _ [inner] => checkObject inner
    | other => checkObject other
  if let some span := asyncSpan then
    return .mk .call (← spanFrom start) [.leaf (.identifier "async") span, .absent, .list items]
  let isSpread (item : Node) : Bool := match item.label with
    | .spread => true
    | _ => false
  match items with
  | [] => failAt (← spanFrom start) .emptyParens
  | first :: rest =>
    if let some (.mk _ _ [inner]) := items.find? isSpread then failAt inner.span .spreadInParens
    let span ← spanFrom start
    if rest.isEmpty then return .mk .parenthesized span [first]
    let inner := Node.mk .sequence ⟨first.span.lo, (rest.getLast?.getD first).span.hi⟩ items
    return .mk .parenthesized span [inner]

/-- Pass what a slash starts as a regular expression. An equals sign that was read with the slash
belongs to the body. -/
def regexpLiteral : Parse Node := do
  let start ← position
  let assigns ← at_ .slashAssign
  modify fun s => { s with lexer := { s.lexer with regexpFrom := some start } }
  bump
  modify fun s => { s with lexer := { s.lexer with regexpFrom := none } }
  match ← current? with
  | some (.regexp rest flags) =>
    bump
    let body := if assigns then "=" ++ rest else rest
    let list := flags.toList
    let known := "dgimsuvy".toList
    if list.any fun c => !known.contains c then note .unknownRegexpFlags
    match known.find? fun c => 1 < list.count c with
    | some c => note (.duplicatedRegexpFlags c)
    | none => pure ()
    return .leaf (.regexp body flags) (← spanFrom start)
  | some (.malformed fault place) => stopAt place fault
  | _ => fail .expressionExpected

/-- An arrow function behind the word `async` with type parameters. -/
def genericAsyncArrow? (g : Grammar) (start : Nat) : Parse (Option Node) := attempt do
  bump
  let typeParameters ← typeParameters g false false
  expect .lparen
  let list ← parameters g
  expect .rparen
  let type ← returnType? g
  expect .arrow
  let targets := list.map fun parameter => match parameter with
    | .mk (.parameter _) _ [target] => target
    | other => other
  let body ← arrowBody g true
  return some (.mk (.arrow true) (← spanFrom start) [typeParameters, .list targets, type, body])

def nameOrArrow (g : Grammar) (start : Nat) (canBeArrow : Bool) : Parse Node := do
  let node ← identifier
  let isNamedAsync := match node.label with
    | .identifier name => name == "async"
    | _ => false
  if canBeArrow && isNamedAsync && !(← afterLineBreak) && (← atReference) then
    let c ← context
    if ← pure c.inLoopHead <&&> atWord "of" <&&> notM (aheadIs .arrow) then
      if !c.inAwaitingHead then note .asyncInFor
      return node
    let parameter ← bindingIdentifier
    if (← context).typescript && !(← at_ .arrow) then
      if let .binding "as" _ := parameter.label then
        let type ← inType (g .type)
        return .mk .asExpression (← spanFrom start) [node, type]
    expect .arrow
    return ← arrowAfter g start true [parameter] .absent
  if canBeArrow && !(← afterLineBreak) && (← at_ .arrow) then
    bump
    let parameter := bindingOf node
    return ← arrowAfter g start false [parameter] .absent
  return node

/-- An expression that no operator is part of. -/
def primary (g : Grammar) : Parse Node := do
  let start ← position
  let canBeArrow := (← get).arrowStart == some start
  let wordPrimary (text : String) : Parse Node := do
    match text with
    | "this" =>
      bump
      return .leaf .this (← spanFrom start)
    | "function" => functionExpression g start false
    | "class" => classNode g start (.classExpression false) false
    | "null" | "true" | "false" => literal
    | _ =>
      if text == "async" then
        if ← aheadIsWord "function" <&&> notM lineBreakAhead then
          bump
          return ← functionExpression g start true
        if ← pure canBeArrow <&&> aheadIs .lparen <&&> notM lineBreakAhead then
          bump
          return ← parenthesizedOrArrow g canBeArrow (some (← lastSpan))
        if ← pure (canBeArrow && (← context).typescript) <&&> aheadIs .lt then
          if let some node ← genericAsyncArrow? g start then return node
      if text == "let" || (← atReference) then
        nameOrArrow g start canBeArrow
      else fail .expressionExpected
  match ← current? with
  | none => fail .expressionExpected
  | some token =>
    match token with
    | .word text _ => wordPrimary text
    | .str _ _ | .num _ | .bigint _ => literal
    | .punct .lbracket => arrayLiteral g
    | .punct .lbrace => objectLiteral g
    | .punct .slash | .punct .slashAssign => regexpLiteral
    | .punct .backquote => template g false
    | .punct .lparen => parenthesizedOrArrow g canBeArrow none
    | .punct .at => classNode g start (.classExpression false) false
    | .punct .hash => privateName
    | _ => fail .expressionExpected

/-- Can the current token follow type arguments of an expression that is not called? -/
def followsInstantiation : Parse Bool := do
  match ← current? with
  | some (.punct p) =>
    if [.lt, .gt, .plus, .minus, .lparen, .backquote].contains p then return false
    return (← afterLineBreak) || p.isBinary || !(← startsExpression)
  | _ => return (← afterLineBreak) || !(← startsExpression)

/-- Type arguments after an expression that is not called. -/
def instantiationArguments? (g : Grammar) : Parse (Option Node) := attempt do
  let arguments ← within (fun c => { c with joinsAngles := false }) (typeArguments g)
  if ← followsInstantiation then return some arguments else return none

def taggedTemplate (g : Grammar) (tag typeArguments : Node) : Parse Node := do
  let inner ← template g true
  if let .optionalChain _ := tag.label then note .taggedOptionalChain
  return .mk .taggedTemplate (← spanFrom tag.span.lo) [tag, typeArguments, inner]

/-- A link of a chain: `node` itself, or marked as a link where the chain is optional. -/
def link (chained optional : Bool) (node : Node) : Node :=
  if chained || optional then .mk (.optionalChain optional) node.span [node] else node

def isSuper (node : Node) : Bool := match node.label with
  | .superWord => true
  | _ => false

def isImportWord (node : Node) : Bool := match node.label with
  | .importWord _ => true
  | _ => false

/-- A call, a tagged template or an instantiation with type arguments, if one follows. -/
def genericSubscript? (g : Grammar) (object : Node) (noCall : Bool) : Parse (Option (Node × Bool)) :=
  attempt do
    let start := object.span.lo
    let types ← typeArguments g
    if !noCall && (← at_ .lparen) then
      let list ← arguments g false
      let node := Node.mk .call (← spanFrom start) [object, types, list]
      return some (link (isChain object) false node, true)
    if ← at_ .backquote then return some (← taggedTemplate g object types, true)
    if (← at_ .assign) || (← atWord "as") || (← atWord "satisfies") then
      return some (.mk .instantiation (← spanFrom start) [object, types], false)
    if ← followsInstantiation then
      return some (.mk .instantiation (← spanFrom start) [object, types], true)
    return none

/-- What stands behind an expression, if anything; and whether more may follow. -/
def subscript (g : Grammar) (object : Node) (noCall noIndex : Bool) : Parse (Node × Bool) := do
  let start := object.span.lo
  let typescript := (← context).typescript
  let special := isSuper object || isImportWord object
  if typescript && !(← afterLineBreak) && (← at_ .bang) then
    allowExpression false
    bump
    if isSuper object then fail (.nonNullWord "super")
    if isImportWord object then fail (.nonNullWord "import")
    return (.mk .nonNull (← spanFrom start) [object], true)
  if typescript && !special && (← at_ .lt) then
    if let some found ← genericSubscript? g object noCall then return found
  let optional ← if ← at_ .question then
      if ← aheadIs .dot then do
        bump
        pure true
      else pure false
    else pure false
  let superAllowed := (← context).directSuperAllowed
  let refuseSuper : Parse Unit := do
    if isSuper object then
      if !superAllowed then fail .superOutside
      if optional then fail (if noCall then .superCallOutside else .superOutside)
  if ← pure optional <&&> at_ .dot <&&> aheadIs .lbracket then bump
  if (optional || !noIndex) && (← at_ .lbracket) then
    let bracket ← position
    bump
    let inner ← nested (g .expression)
    expect .rbracket
    if isImportWord object then throw .breakdown
    refuseSuper
    let key := Node.mk .computedKey (← spanFrom bracket) [inner]
    let node := Node.mk .index (← spanFrom start) [object, key]
    return (link (isChain object) optional node, true)
  let callsOptionally ← do
    if optional && (← at_ .dot) then
      if ← aheadIs .lparen <||> (pure typescript <&&> aheadIs .lt) then do
        bump
        pure true
      else pure false
    else pure false
  if callsOptionally || (!noCall && (← at_ .lparen)) then
    let types ← if typescript && (← at_ .lt) then typeArguments g else pure Node.absent
    let list ← arguments g (isImportWord object)
    if optional && special then fail .superCallOptional
    let node := Node.mk .call (← spanFrom start) [object, types, list]
    return (link (isChain object) optional node, true)
  if ← eat .dot then
    let name ← memberName
    if isImportWord object then fail (.typeSyntax "InvalidImport")
    refuseSuper
    if let .privateName _ := name.label then
      if isSuper object then fail .superPrivateName
    let node := Node.mk .member (← spanFrom start) [object, name]
    return (link (isChain object) optional node, true)
  if isSuper object then fail (if noCall then .superCallOutside else .superOutside)
  if isImportWord object then unexpected "\x60.\x60 or \x60(\x60"
  if ← at_ .backquote then return (← taggedTemplate g object .absent, true)
  return (object, false)

/-- An expression with all that stands behind it. -/
def subscripts (g : Grammar) (object : Node) (noCall : Bool) : Parse Node :=
  loop object fun node => do
    let (next, more) ← subscript g node noCall false
    return if more then .inl next else .inr next

/-- A name that a type extends or implements, with all that stands behind it. -/
def supertype (g : Grammar) : Parse Node := do
  let start ← position
  let text ← match (← name).label with
    | .name text => pure text
    | _ => pure ""
  let first := Node.leaf (.identifier text) (← spanFrom start)
  loop first fun node => do
    let (next, more) ← subscript g node true true
    return if more then .inl next else .inr next

/-- What the word `import`, which was passed, starts in an expression. -/
def importExpression (g : Grammar) (start : Nat) (noCall : Bool) : Parse Node := do
  let wordSpan ← spanFrom start
  if ← eat .dot then
    match (← name).label with
    | .name "meta" => subscripts g (.leaf .importMeta (← spanFrom start)) noCall
    | .name "source" => subscripts g (.leaf (.importWord "source") (← spanFrom start)) noCall
    | _ => unexpected "meta"
  else subscripts g (.leaf (.importWord "") wordSpan) noCall

/-- An expression that starts with `n` times `new`; after `new` no call follows. -/
def memberOrNew (g : Grammar) : Nat → Parse Node
  | 0 => throw .breakdown
  | n + 1 => do
    let start ← position
    if ← eatWord "new" then
      if ← eat .dot then
        if !(← eatWord "target") then unexpected "target"
        let span ← spanFrom start
        let c ← context
        if !c.insideFunction && !c.inParameters && !c.inClassField then
          note .newTargetOutsideFunction
        return ← subscripts g (.leaf .newTarget span) true
      let callee ← memberOrNew g n
      if isArrow callee then return callee
      match callee with
      | .mk (.optionalChain _) span _ => failAt span .optionalChainAfterNew
      | .mk .member span (.mk (.optionalChain _) _ _ :: _)
      | .mk .index span (.mk (.optionalChain _) _ _ :: _) => failAt span .optionalChainAfterNew
      | _ => pure ()
      let types ←
        if (← context).typescript && (← atTypeArguments) then
          Node.ofOption <$> attempt do
            let types ← within (fun c => { c with joinsAngles := false }) (typeArguments g)
            if ← at_ .lparen then return some types else return none
        else pure Node.absent
      if ← at_ .lparen then
        let list ← arguments g false
        let node := Node.mk .newExpression (← spanFrom start) [callee, types, list]
        return ← subscripts g node true
      return .mk .newExpression (← spanFrom start) [callee, types, .absent]
    if ← eatWord "super" then
      return ← subscripts g (.leaf .superWord (← spanFrom start)) true
    if ← eatWord "import" then return ← importExpression g start true
    let object ← primary g
    if isArrow object then return object
    let object ←
      if (← context).typescript && (← at_ .lt) then
        match ← instantiationArguments? g with
        | some types => do pure (Node.mk .instantiation (← spanFrom start) [object, types])
        | none => pure object
      else pure object
    subscripts g object true

/-- An element that a plain angle starts, for nothing else can start with one here. -/
def forcedElement (g : Grammar) : Parse Node := do
  let start ← position
  bump
  within (fun c => { c with forcedTag := true, joinsAngles := false })
    (element g (typeArguments g) start)

/-- An expression that can be called, updated or assigned to. -/
def operand (g : Grammar) : Parse Node := do
  let start ← position
  let c ← context
  if c.jsx then
    match ← needCurrent with
    | .jsxText raw =>
      bump
      return .leaf (.markupText raw) (← spanFrom start)
    | .tagStart =>
      bump
      return ← g (.element start)
    | .punct .lt => if !(← aheadIs .bang) then return ← forcedElement g
    | _ => pure ()
  if ← eatWord "super" then
    return ← subscripts g (.leaf .superWord (← spanFrom start)) false
  if ← eatWord "import" then return ← importExpression g start false
  let size := (← get).lexer.size
  let callee ← within (fun c => { c with joinsAngles := true }) (memberOrNew g (size + 1))
  if isArrow callee then return callee
  let types ←
    if c.typescript && (← atTypeArguments) then
      Node.ofOption <$> attempt do
        let types ← typeArguments g
        if ← at_ .lparen then return some types else return none
    else pure Node.absent
  if let .mk .newExpression span [inner, _, .mk .absent _ _] := callee then
    if !types.isAbsent then expect .lparen
    return if types.isAbsent then callee else .mk .newExpression span [inner, types, .absent]
  if ← at_ .lparen then
    let list ← arguments g false
    let node := Node.mk .call (← spanFrom start) [callee, types, list]
    return ← subscripts g (link (isChain callee) false node) false
  if !types.isAbsent then expect .lparen
  return callee

/-- An expression that waits for a value, behind the word `await` at `start`. -/
def awaited (g : Grammar) (start : Nat) : Parse Node := do
  if ← at_ .star then fail (.typeSyntax "AwaitStar")
  let span ← spanFrom start
  let c ← context
  let ends ← do
    if ← atSemicolon then pure true
    else pure ((← at_ .rparen) || (← at_ .rbracket) || (← at_ .comma))
  if !c.inAsync && ends then
    note (.typeSyntax "InvalidIdentInAsync")
    return .leaf (.identifier "await") span
  if c.returnAllowed && !c.inAsync then note .awaitInAsync
  if c.inParameters && !c.returnAllowed then note .awaitParameter
  let inner ← g .unary
  return .mk .awaitExpression (← spanFrom start) [inner]

def awaitExpression (g : Grammar) : Parse Node := do
  let start ← position
  bump
  awaited g start

/-- A type in angles in front of an expression. -/
def assertionExpression (g : Grammar) (start : Nat) : Parse Node := do
  if ← eatWord "const" then
    expect .gt
    let inner ← g .unary
    return .mk .constAssertion (← spanFrom start) [inner]
  let type ← inType (g .type)
  expect .gt
  let inner ← g .unary
  return .mk .typeAssertion (← spanFrom start) [type, inner]

def prefixOperator? : Parse (Option String) := do
  match ← current? with
  | some (.word name _) =>
    return if name == "delete" || name == "void" || name == "typeof" then some name else none
  | some (.punct p) =>
    return if [Punct.plus, .minus, .tilde, .bang].contains p then some p.text else none
  | _ => return none

/-- Run, and note a fault instead of stopping at it. -/
def notingFault (start : Nat) (action : Parse Node) : Parse Node := fun s =>
  match action s with
  | .error (.fault fault _) t =>
    (do
      note fault
      return .leaf .invalid ⟨start, start⟩ : Parse Node) t
  | other => other

/-- Does the expression, perhaps in parentheses, denote a property of an object? -/
def isProperty : Node → Bool
  | .mk .parenthesized _ [inner] => isProperty inner
  | .mk .member _ [object, _] | .mk .index _ [object, _] => !isSuper object
  | .mk (.optionalChain _) _ [inner] => !(inner.label matches .call)
  | _ => false

def unaryExpression (g : Grammar) : Parse Node := do
  let start ← position
  let c ← context
  if !c.jsx && c.typescript then
    if ← at_ .lt then
      bump
      return ← assertionExpression g start
  if (← at_ .increment) || (← at_ .decrement) then
    let op := if ← at_ .increment then "++" else "--"
    bump
    let inner ← g .unary
    checkTarget inner
    return .mk (.update op true) ⟨start, inner.span.hi⟩ [inner]
  if let some op ← prefixOperator? then
    bump
    let before := (← position) - 1
    let inner ← notingFault before (g .unary)
    if op == "delete" then
      if let .identifier _ := inner.label then note .deleteOfIdentifier
      if c.typescript && !isProperty inner then note (.typeSyntax "TS2703")
    return .mk (.unary op) ⟨start, inner.span.hi⟩ [inner]
  if ← atWord "await" then return ← awaitExpression g
  let inner ← g .operand
  if isArrow inner then return inner
  if ← afterLineBreak then return inner
  if (← at_ .increment) || (← at_ .decrement) then
    checkTarget inner
    let op := if ← at_ .increment then "++" else "--"
    bump
    return .mk (.update op false) (← spanFrom inner.span.lo) [inner]
  return inner

end BreakpointProps.Script.Parse
