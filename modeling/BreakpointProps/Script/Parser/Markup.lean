import BreakpointProps.Script.Parser.Name

/-!
Markup: elements, fragments, attributes and what stands between tags.
-/

namespace BreakpointProps.Script.Parse

def tagName : Parse Node := do
  let start ← position
  match ← needCurrent with
  | .jsxName text =>
    bump
    return .leaf (.name text) (← spanFrom start)
  | _ =>
    if !(← context).forcedTag then unexpected "jsx identifier"
    match ← identifier with
    | .mk (.identifier text) span _ => return .leaf (.name text) span
    | other => return other

def namespacedName : Parse Node := do
  let start ← position
  let first ← tagName
  if ← eat .colon then
    let second ← tagName
    return .mk .tagNamespaced ⟨start, second.span.hi⟩ [first, second]
  return first

/-- A name that dots may follow. A name with a namespace has no members. -/
def elementName : Parse Node := do
  let start ← position
  let first ← namespacedName
  loop first fun node => do
    if ← eat .dot then
      let name ← tagName
      if let .tagNamespaced := node.label then throw .breakdown
      return .inl (.mk .tagMember (← spanFrom start) [node, name])
    return .inr node

/-- The expression between braces, or nothing. -/
def expressionContainer (g : Grammar) : Parse Node := do
  let start ← position
  bump
  let inner ←
    if ← at_ .rbrace then
      pure (Node.leaf .emptyExpression ⟨(← lastSpan).hi, ← position⟩)
    else g .expression
  expect .rbrace
  return .mk .container (← spanFrom start) [inner]

def attributeValue (g : Grammar) : Parse Node := do
  match ← needCurrent with
  | .punct .lbrace =>
    let node ← expressionContainer g
    match node.parts with
    | [.mk .emptyExpression _ _] => fail .emptyAttribute
    | _ => return node
  | .str _ _ => literal
  | .tagStart =>
    let start ← position
    bump
    g (.element start)
  | _ => fail .invalidAttributeValue

/-- An attribute, or attributes spread from an object. -/
def tagAttribute (g : Grammar) : Parse Node := do
  let start ← position
  if ← eat .lbrace then
    let dots ← position
    expect .ellipsis
    let inner ← g .assignment
    let span ← spanFrom dots
    expect .rbrace
    return .mk .spread span [inner]
  let name ← namespacedName
  let value ←
    if ← eat .assign then
      within (fun c => { c with inCondition := false, expectsColon := false }) (attributeValue g)
    else pure Node.absent
  return .mk .attribute (← spanFrom start) [name, value]

def openingTagAfterName (g : Grammar) (start : Nat) (name : Node) (typeArguments : Parse Node) :
    Parse Node := do
  let arguments ←
    if (← context).typescript && (← at_ .lt) then
      Node.ofOption <$> attempt (some <$> typeArguments)
    else pure Node.absent
  let inTag : Parse Bool := do
    match ← current? with
    | none | some (.punct .slash) | some .tagEnd => return false
    | some _ => return true
  let attributes ← many inTag (tagAttribute g)
  let selfClosing ← eat .slash
  match ← current? with
  | some .tagEnd => bump
  | some (.punct .gt) =>
    if (← context).forcedTag then bump else unexpected "> (jsx closing tag)"
  | _ => unexpected "> (jsx closing tag)"
  return .mk (.openingTag selfClosing) (← spanFrom start) (name :: arguments :: attributes)

/-- The name of an element as it is compared with that of the closing tag. -/
def qualifiedTagName : Nat → Node → String
  | 0, _ => ""
  | n + 1, node => match node with
    | .mk (.name text) _ _ => text
    | .mk (.identifier text) _ _ => text
    | .mk .tagNamespaced _ [a, b] => qualifiedTagName n a ++ ":" ++ qualifiedTagName n b
    | .mk .tagMember _ [a, b] => qualifiedTagName n a ++ "." ++ qualifiedTagName n b
    | _ => ""

/-- A closing tag whose slash was passed; nothing for the end of a fragment. -/
def closingTag (start : Nat) : Parse (Option Node) := do
  if let some .tagEnd ← current? then
    bump
    return none
  let name ← elementName
  match ← current? with
  | some .tagEnd => bump
  | some (.punct .gt) =>
    if (← context).forcedTag then bump else fail (.expected "> (jsx closing tag)" (← describeCurrent))
  | _ => fail (.expected "> (jsx closing tag)" (← describeCurrent))
  return some (.mk .closingTag (← spanFrom start) [name])

/-- What stands between the tags, and the closing tag. -/
def markupChildren (g : Grammar) : Parse (List Node × Option Node) :=
  loop ([] : List Node) fun children => do
    match ← needCurrent with
    | .tagStart =>
      let start ← position
      if ← aheadIs .slash then
        bump
        bump
        return .inr (children.reverse, ← closingTag start)
      bump
      return .inl ((← g (.element start)) :: children)
    | .jsxText raw =>
      let start ← position
      bump
      return .inl (.leaf (.markupText raw) (← spanFrom start) :: children)
    | .punct .lbrace =>
      if ← aheadIs .ellipsis then
        let start ← position
        bump
        bump
        let inner ← g .expression
        expect .rbrace
        return .inl (.mk .spreadChild (← spanFrom start) [inner] :: children)
      return .inl ((← expressionContainer g) :: children)
    | _ => unexpected "< (jsx tag start), jsx text or \x7b"

/-- An element or a fragment whose opening angle, at `start`, was passed. -/
def element (g : Grammar) (typeArguments : Parse Node) (start : Nat) : Parse Node := do
  if let some .tagEnd ← current? then
    bump
    let (children, closing) ← markupChildren g
    if closing.isSome then fail .closingFragmentExpected
    return .mk .fragment (← spanFrom start) [.list children]
  let name ← within (fun c => { c with joinsAngles := false }) elementName
  let opening ← openingTagAfterName g start name typeArguments
  if let .openingTag true := opening.label then
    return .mk .element (← spanFrom start) [opening, .list [], .absent]
  let (children, closing) ← markupChildren g
  let span ← spanFrom start
  let size := (← get).lexer.size
  let tag := qualifiedTagName size name
  match closing with
  | none => fail (.closingTagExpected tag)
  | some closing =>
    let closed := match closing.parts with
      | [n] => qualifiedTagName size n
      | _ => ""
    if closed != tag then fail (.closingTagExpected tag)
    return .mk .element span [opening, .list children, closing]

end BreakpointProps.Script.Parse
