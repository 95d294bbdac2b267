import BreakpointProps.Script.Parser.Core

/-!
Names, literals and property keys.
-/

namespace BreakpointProps.Script.Parse

/-- Words that cannot be bound in a module, though they are no keywords. -/
def strictWords : List String :=
  ["static", "implements", "interface", "package", "private", "public", "protected"]

/-- A name that is bound or looked up, as its text; the words `yield` and `await` have their own
rules. -/
def identifierText (yieldAllowed : Bool) : Parse String := do
  match ← needCurrent with
  | .word name _ =>
    bump
    let c ← context
    if name == "enum" || name == "let" || name == "yield" || strictWords.contains name then
      note (.reservedInStrict name)
    if name == "await" then
      if c.inDeclare then return name
      failAt (← lastSpan)
        (if c.inStaticBlock then .expectedIdentifier else .typeSyntax "InvalidIdentInAsync")
    if name == "this" && c.typescript then return name
    if name == "let" || (name == "yield" && yieldAllowed) then return name
    if keywords.contains name || name == "null" || name == "true" || name == "false" then
      failAt (← lastSpan) .expectedIdentifier
    if name == "arguments" && c.inClassField then note .argumentsInField
    return name
  | _ => fail .expectedIdentifier

/-- A name that is looked up. -/
def identifier : Parse Node := do
  let start ← position
  let name ← identifierText (!(← context).inGenerator)
  return .leaf (.identifier name) (← spanFrom start)

/-- A name that is bound, without a type. -/
def bindingIdentifier : Parse Node := do
  let start ← position
  let name ← identifierText true
  if name == "eval" || name == "arguments" then note .reservedBinding
  return .mk (.binding name false) (← spanFrom start) [.absent]

/-- The word `let` names no variable of a block and no class. -/
def refuseLet : Parse Unit := do
  if ← atWord "let" then unexpected "let is reserved in const, let, class declaration"

/-- A word of any kind as a name. -/
def name : Parse Node := do
  let start ← position
  match ← needCurrent with
  | .word text _ =>
    bump
    return .leaf (.name text) (← spanFrom start)
  | _ => fail .expectedIdentifier

def privateName : Parse Node := do
  let start ← position
  bump
  let hashEnd := (← lastSpan).hi
  if hashEnd < (← position) then fail .spaceAfterHash
  match ← needCurrent with
  | .word text _ =>
    bump
    return .leaf (.privateName text) (← spanFrom start)
  | _ => fail .expectedIdentifier

def memberName : Parse Node := do
  if ← at_ .hash then privateName else name

/-- A string, a number, a boolean or `null`. -/
def literal : Parse Node := do
  let start ← position
  let leaf (label : Label) : Parse Node := do
    bump
    return .leaf label (← spanFrom start)
  match ← needCurrent with
  | .word "null" _ => leaf .null
  | .word "true" _ => leaf (.boolean true)
  | .word "false" _ => leaf (.boolean false)
  | .num raw => leaf (.number raw)
  | .bigint raw => leaf (.bigint raw)
  | .str value raw => leaf (.string value (some raw))
  | _ => unexpected "literal"

def propertyKey (g : Grammar) : Parse Node :=
  within (fun c => { c with inPropertyName := true }) do
    let start ← position
    match ← needCurrent with
    | .str _ _ | .num _ | .bigint _ => literal
    | .word text _ =>
      bump
      return .leaf (.name text) (← spanFrom start)
    | .punct .lbracket =>
      bump
      let inner ← includingIn true (g .assignment)
      if (← context).typescript && (← at_ .comma) then
        let more ← many (at_ .comma) do
          bump
          includingIn true (g .assignment)
        note (.typeSyntax "TS1171")
        expect .rbracket
        let whole := Node.mk .sequence ⟨inner.span.lo, (more.getLast?.getD inner).span.hi⟩ (inner :: more)
        return .mk .computedKey (← spanFrom start) [whole]
      expect .rbracket
      return .mk .computedKey (← spanFrom start) [inner]
    | _ => unexpected "identifier, string literal, numeric literal or [ for the computed key"

/-- The name that a key spells, where it is a plain name or a string. -/
def keyText? (key : Node) : Option String := match key.label with
  | .name text => some text
  | .string value _ => some value
  | _ => none

def moduleSource : Parse Node := do
  match ← current? with
  | some (.str _ _) => literal
  | _ => unexpected "a string literal"

end BreakpointProps.Script.Parse
