import BreakpointProps.Script.Parser.Pattern

/-!
Expressions that turn out to be targets: the left side of an assignment and the parameters of an
arrow function are read as expressions first.
-/

namespace BreakpointProps.Script.Parse

/-- Is the node a link of an optional chain, perhaps with a non-null mark? -/
def isChain : Node → Bool
  | .mk (.optionalChain _) _ _ => true
  | .mk .nonNull _ [inner] => isChain inner
  | _ => false

/-- Can a value be assigned to what the expression denotes? -/
def isSimpleTarget : Node → Bool
  | .mk (.identifier name) _ _ => name != "eval" && name != "arguments"
  | .mk .member _ [object, _] => !(match object.label with
    | .optionalChain _ => true
    | _ => false)
  | .mk .index _ [object, _] => !(match object.label with
    | .optionalChain _ => true
    | _ => false)
  | .mk .parenthesized _ [inner] => isSimpleTarget inner
  | .mk .nonNull _ [inner] => isSimpleTarget inner
  | .mk .asExpression _ [inner, _] => isSimpleTarget inner
  | .mk .satisfiesExpression _ [inner, _] => isSimpleTarget inner
  | .mk .typeAssertion _ [_, inner] => isSimpleTarget inner
  | .mk .instantiation _ [inner, _] => isSimpleTarget inner
  | _ => false

/-- Can the expression stand on the left of an assignment at all? -/
def isTarget (node : Node) : Bool := match node.label with
  | .identifier _ | .member | .index | .parenthesized | .optionalChain _ | .asExpression
  | .satisfiesExpression | .nonNull | .typeAssertion | .instantiation | .binding _ _
  | .arrayPattern _ | .objectPattern _ | .invalid => true
  | _ => false

/-- Note a fault where nothing can be assigned to the expression. -/
def checkTarget (node : Node) : Parse Unit := do
  if !isSimpleTarget node then note .invalidAssignmentTarget

/-- What kind of target an expression is to become. -/
inductive TargetKind where
  /-- A parameter. -/
  | parameter
  | parameterPart
  /-- The left side of an assignment. -/
  | assigned
  | assignedPart
  deriving DecidableEq, Repr

def TargetKind.part : TargetKind → TargetKind
  | parameter | parameterPart => parameterPart
  | assigned | assignedPart => assignedPart

/-- What an expression is that is no target. -/
def invalidTarget (span : Span) : Parse Node := do
  note .invalidPattern
  return .leaf .invalid span

/-- The target that the name in an expression is. -/
def bindingOf (node : Node) : Node := match node with
  | .mk (.identifier name) span _ => .mk (.binding name false) span [.absent]
  | other => other

/-- A property of an object as a property of a pattern. `isLast` says whether no other follows, and
`trailing` whether a comma does. -/
def propertyAsPattern (convert : Node → Parse Node) (kind : TargetKind) (isLast trailing : Bool)
    (property : Node) : Parse Node := do
  match property with
  | .mk (.shorthand name) span _ =>
    return .mk (.shorthandPattern name) span [.absent, .leaf (.name name) span]
  | .mk .keyValue span [key, value] => return .mk .keyPattern span [key, ← convert value]
  | .mk .assignedShorthand span [key, value] =>
    let name := match key.label with
      | .name text => text
      | _ => ""
    return .mk (.shorthandPattern name) span [value, key]
  | .mk .spread span [inner] =>
    if !isLast then note (.typeSyntax "NonLastRestParam")
    else if trailing then note .trailingCommaAfterRest
    let target ←
      if kind.part == .parameterPart then
        match inner.label with
        | .identifier _ => pure (bindingOf inner)
        | _ => do
          note (.typeSyntax "DotsWithoutIdentifier")
          pure (Node.leaf .invalid span)
      else convert inner
    if let .defaulted := target.label then note .defaultInRest
    return .mk (.rest span.lo) span [target, .absent]
  | _ => failAt property.span .invalidPattern

def elementAsPattern (convert : Node → Parse Node) (isLast trailing : Bool) (element : Node) :
    Parse Node := do
  match element with
  | .mk .absent _ _ => return .absent
  | .mk .spread span [inner] =>
    if !isLast then
      note (.typeSyntax "NonLastRestParam")
      return .absent
    if let .assignment _ := inner.label then note .defaultInRest
    if trailing then note .trailingCommaAfterRest
    return .mk (.rest span.lo) inner.span [← convert inner, .absent]
  | other => convert other

def convertItems (convert : Bool → Node → Parse Node) : List Node → Parse (List Node)
  | [] => return []
  | [item] => return [← convert true item]
  | item :: rest => do
    let first ← convert false item
    return first :: (← convertItems convert rest)

/-- Can an expression with this label be an element of an assigned pattern? -/
def isElementTarget : Label → Bool
  | .member | .index | .call | .newExpression | .number _ | .bigint _ | .string _ _ | .boolean _
  | .null | .regexp _ _ | .identifier _ | .functionExpression _ _ | .classExpression _
  | .parenthesized | .template | .asExpression => true
  | _ => false

/-- An expression as a target. The first argument bounds the depth. -/
def asPattern : Nat → TargetKind → Node → Parse Node
  | 0, _, _ => throw .breakdown
  | n + 1, kind, node => do
    let trailing := (← get).trailingCommas.contains node.span.lo
    let convert (inner : Node) : Parse Node := asPattern n kind.part inner
    match node with
    | .mk .object span properties =>
      let parts ← convertItems (propertyAsPattern convert kind · trailing ·) properties
      return .mk (.objectPattern false) span (parts ++ [.absent])
    | .mk .array span elements =>
      let kept := (elements.reverse.dropWhile Node.isAbsent).reverse
      let closed := kept.length == elements.length
      let parts ← convertItems (fun isLast => elementAsPattern convert (isLast && closed) trailing)
        kept
      return .mk (.arrayPattern false) span (parts ++ [.absent])
    | _ =>
      match kind with
      | .assigned =>
        checkTarget node
        return bindingOf node
      | .assignedPart =>
        if isElementTarget node.label then
          if !isSimpleTarget node then note .notAssignable
          return bindingOf node
      | _ => pure ()
      match node with
      | .mk (.assignment "=") span [left, right] =>
        let target ← match left.label with
          | .binding _ _ | .arrayPattern _ | .objectPattern _ => pure left
          | _ => asPattern n kind left
        return .mk .defaulted span [target, right]
      | .mk (.identifier _) _ _ => return bindingOf node
      | other => invalidTarget other.span

def toPattern (kind : TargetKind) (node : Node) : Parse Node := do
  asPattern ((← get).lexer.size + 1) kind node

end BreakpointProps.Script.Parse
