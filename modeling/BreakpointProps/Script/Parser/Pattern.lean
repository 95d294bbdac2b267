import BreakpointProps.Script.Parser.Name

/-!
Targets of declarations and parameters.
-/

namespace BreakpointProps.Script.Parse

/-- Put a type, and whether the target is optional, on a target. -/
def withType (node type : Node) (optional : Bool) : Node := match node with
  | .mk (.binding name o) span _ => .mk (.binding name (o || optional)) span [type]
  | .mk (.arrayPattern o) span parts => .mk (.arrayPattern (o || optional)) span (parts.dropLast ++ [type])
  | .mk (.objectPattern o) span parts =>
    .mk (.objectPattern (o || optional)) span (parts.dropLast ++ [type])
  | .mk (.rest dots) span (inner :: _) => .mk (.rest dots) span [inner, type]
  | other => other

def colonType (g : Grammar) : Parse Node := do
  let start ← position
  inType do
    bump
    let type ← g .type
    return .mk .colonType (← spanFrom start) [type]

def colonType? (g : Grammar) : Parse Node := do
  if (← context).typescript && (← at_ .colon) then colonType g else return .absent

/-- A target with a default value. -/
def bindingElement (g : Grammar) : Parse Node := do
  let start ← position
  let left ← g .pattern
  if ← eat .assign then
    let right ← includingIn true (g .assignment)
    if (← context).inDeclare then note (.typeSyntax "TS2371")
    return .mk .defaulted (← spanFrom start) [left, right]
  return left

def arrayPattern (g : Grammar) : Parse Node := do
  let start ← position
  bump
  let elements ← loop (([] : List Node), false) fun (elements, restSeen) => do
    if (← atEnd) || (← at_ .rbracket) then return .inr elements.reverse
    if ← eat .comma then return .inl (.absent :: elements, restSeen)
    if restSeen then note (.typeSyntax "NonLastRestParam")
    let start ← position
    let isRest ← eat .ellipsis
    let element ←
      if isRest then do
        let inner ← g .pattern
        pure (Node.mk (.rest start) (← spanFrom start) [inner, .absent])
      else bindingElement g
    if !(← at_ .rbracket) then
      expect .comma
      if isRest && (← at_ .rbracket) then note .trailingCommaAfterRest
    return .inl (element :: elements, restSeen || isRest)
  expect .rbracket
  let optional ← if (← context).inDeclare then eat .question else pure false
  return .mk (.arrayPattern optional) (← spanFrom start) (elements ++ [.absent])

def patternProperty (g : Grammar) : Parse Node := do
  let start ← position
  if ← eat .ellipsis then
    let inner ← g .pattern
    return .mk (.rest start) (← spanFrom start) [inner, .absent]
  let key ← propertyKey g
  if ← eat .colon then
    let value ← bindingElement g
    return .mk .keyPattern ⟨key.span.lo, value.span.hi⟩ [key, value]
  match key.label with
  | .name text =>
    let value ←
      if ← eat .assign then includingIn true (g .assignment) else pure Node.absent
    return .mk (.shorthandPattern text) (← spanFrom start) [value, key]
  | _ => unexpected "an identifier"

def objectPattern (g : Grammar) : Parse Node :=
  within (fun c => { c with expectsColon := false }) do
    let start ← position
    bump
    let (properties, trailing) ← loop (([] : List Node), false) fun (properties, _) => do
      if ← eat .rbrace then return .inr (properties.reverse, false)
      let property ← patternProperty g
      if !(← at_ .rbrace) then
        expect .comma
        if ← eat .rbrace then return .inr ((property :: properties).reverse, true)
      return .inl (property :: properties, false)
    let span ← spanFrom start
    let isRest (node : Node) : Bool := match node.label with
      | .rest _ => true
      | _ => false
    if properties.dropLast.any isRest then note (.typeSyntax "NonLastRestParam")
    if let some (.mk (.rest _) _ (inner :: _)) := properties.getLast? then
      match inner.label with
      | .binding _ _ => if trailing then note .trailingCommaAfterRest
      | _ => fail (.typeSyntax "DotsWithoutIdentifier")
    let optional ← if (← context).inDeclare then eat .question else pure false
    return .mk (.objectPattern optional) span (properties ++ [.absent])

/-- A target of a declaration. -/
def pattern (g : Grammar) : Parse Node := do
  match ← needCurrent with
  | .word _ _ => bindingIdentifier
  | .punct .lbracket => arrayPattern g
  | .punct .lbrace => objectPattern g
  | _ => unexpected "yield, an identifier, [ or \x7b"

/-- Can the next token be what a modifier modifies? -/
def canFollowModifier : Parse Bool := do
  if ← afterLineBreak then return false
  match ← current? with
  | some (.word _ _) | some (.str _ _) | some (.num _) | some (.bigint _) => return true
  | some (.punct p) => return [.lbracket, .lbrace, .star, .ellipsis, .hash].contains p
  | _ => return false

/-- Pass one of these modifiers if it modifies what follows. -/
def modifier? (allowed : List String) (beforeStaticBlock : Bool) : Parse (Option String) := do
  match ← current? with
  | some (.word name _) =>
    if !allowed.contains name then return none
    if ← pure (beforeStaticBlock && name == "static") <&&> aheadIs .lbrace then return none
    attempt do
      bump
      return if ← canFollowModifier then some name else none
  | _ => return none

/-- Pass a modifier of access in front of a parameter. -/
def eatModifier : Parse Bool := do
  if !(← context).typescript then return false
  match ← current? with
  | some (.word name _) =>
    if !(["public", "protected", "private", "readonly"].contains name) then return false
    let follows ← match ← ahead? with
      | some (.word _ _) | some (.punct .lbrace) | some (.punct .lbracket) => pure true
      | _ => pure false
    if follows then
      let _ ← modifier? ["public", "protected", "private", "readonly"] false
    return follows
  | _ => return false

/-- The target of a parameter, with its type and default value. -/
def parameterPattern (g : Grammar) : Parse Node := do
  let start ← position
  let modified ← eatModifier
  let patternStart ← position
  let target ← bindingElement g
  let typescript := (← context).typescript
  let optional ← if typescript then eat .question else pure false
  let isDefaulted := match target.label with
    | .defaulted => true
    | _ => false
  if optional && isDefaulted && !(← context).inDeclare then
    failAt (← lastSpan) (.typeSyntax "TsBindingPatCannotBeOptional")
  let type ← colonType? g
  if isDefaulted && !type.isAbsent then note (.typeSyntax "TSTypeAnnotationAfterAssign")
  let target := withType target type optional
  let target := match target.label with
    | .binding _ _ => target
    | _ => if type.isAbsent then target else target.withSpan ⟨patternStart, type.span.hi⟩
  let result ←
    if ← eat .assign then do
      if optional then note (.typeSyntax "TS1015")
      let right ← g .assignment
      if (← context).inDeclare then note (.typeSyntax "TS2371")
      pure (Node.mk .defaulted (← spanFrom start) [target, right])
    else pure target
  if modified then note (.typeSyntax "TS2369")
  return result

/-- The parameters between the parentheses of a function. -/
def parameters (g : Grammar) : Parse (List Node) :=
  loop (([] : List Node), false) fun (done, restSeen) => do
    if (← atEnd) || (← at_ .rparen) then return .inr done.reverse
    if restSeen then note .restNotLast
    let start ← position
    let patternStart ← position
    let isRest ← eat .ellipsis
    let target ←
      if isRest then do
        let inner ← pattern g
        let inner ←
          if ← eat .assign then do
            let right ← g .assignment
            note .defaultInRest
            pure (Node.mk .defaulted (← spanFrom patternStart) [inner, right])
          else pure inner
        let type ← colonType? g
        let span ← spanFrom patternStart
        if (← context).typescript then
          if ← eat .question then note (.typeSyntax "TS1047")
        pure (Node.mk (.rest patternStart) span [inner, type])
      else parameterPattern g
    let parameter := Node.mk (.parameter []) (← spanFrom start) [target]
    if !(← at_ .rparen) then
      expect .comma
      if isRest && (← at_ .rparen) then note .trailingCommaAfterRest
    return .inl (parameter :: done, restSeen || isRest)

end BreakpointProps.Script.Parse
