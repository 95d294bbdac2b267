import BreakpointProps.Script.Token

/-!
The state of a lexer. Whether an angle opens a tag and whether blanks carry meaning depends on what
encloses the next token; the scopes keep track of that.
-/

namespace BreakpointProps.Script

/-- What encloses the next token. -/
inductive Scope where
  | braceStatement
  | braceExpression
  /-- Between the braces of a template substitution or of a markup expression. -/
  | substitution
  | parenStatement (inFor : Bool)
  | parenExpression
  | template
  | functionExpression
  | classExpression
  | openingTag
  | closingTag
  /-- Between an opening tag and its closing tag. -/
  | markup
  deriving DecidableEq, Repr, Inhabited

namespace Scope

/-- Does the scope belong to an expression, so that no expression can follow its end? -/
def isExpression : Scope → Bool
  | braceExpression | substitution | parenExpression | template | functionExpression
  | classExpression | markup => true
  | _ => false

/-- Are blanks part of the text here? -/
def keepsBlanks : Scope → Bool
  | template | markup => true
  | _ => false

end Scope

/-- What the parser knows about the place of the next token. -/
structure Context where
  /-- Tags are recognised. -/
  jsx : Bool := true
  /-- Types are recognised. -/
  typescript : Bool := false
  /-- Faults that do not stop the reading are not noted. -/
  quiet : Bool := false
  /-- `in` is an operator. -/
  includeIn : Bool := true
  /-- Inside a function that is no arrow function. -/
  insideFunction : Bool := false
  returnAllowed : Bool := false
  inAsync : Bool := false
  inGenerator : Bool := false
  inStaticBlock : Bool := false
  breakAllowed : Bool := false
  continueAllowed : Bool := false
  inType : Bool := false
  /-- Angles in a type may be part of longer operators. -/
  joinsAngles : Bool := false
  inDeclare : Bool := false
  inCondition : Bool := false
  expectsColon : Bool := false
  inClass : Bool := false
  inClassField : Bool := false
  inParameters : Bool := false
  hasSuperclass : Bool := false
  inPropertyName : Bool := false
  forcedTag : Bool := false
  directSuperAllowed : Bool := false
  noConditionalTypes : Bool := false
  topLevel : Bool := true
  /-- In the head of a loop. -/
  inLoopHead : Bool := false
  /-- In the head of a loop that waits for its values. -/
  inAwaitingHead : Bool := false
  deriving Inhabited

/-- The state of a lexer between two tokens. -/
structure Lexer where
  /-- What is left of the source. -/
  rest : List Char
  /-- The position of the first character that is left. -/
  position : Nat := 1
  /-- A bound on the number of steps that any loop over the source takes. -/
  size : Nat
  context : Context := {}
  /-- May an expression start here? -/
  expressionAllowed : Bool := true
  /-- The enclosing scopes, innermost first. -/
  scopes : List Scope := [.braceStatement]
  last : Option Token := none
  lastEnd : Nat := 1
  /-- A line ends between the last token and the place reached. -/
  lineBreak : Bool := true
  lineBreakBeforeLast : Bool := false
  atStart : Bool := true
  /-- Read a regular expression next; its slash was passed at this position. -/
  regexpFrom : Option Nat := none
  templateFrom : Nat := 0
  /-- Comments that will lead the next token, last first. -/
  pending : List Comment := []
  /-- Comments with their place, last first. -/
  attached : List AttachedComment := []
  /-- The comments that were attached whenever the end of the source was reached, last first. -/
  settled : List AttachedComment := []
  /-- The first fault that was noted. -/
  noted : Option Fault := none
  deriving Inhabited

/-- Reading with a lexer. -/
abbrev Lex := EStateM Halt Lexer

namespace Lex

/-- Stop at a fault from a position up to here. -/
def failFrom {α : Type} (start : Nat) (fault : Fault) : Lex α := do
  throw (.fault fault ⟨start, (← get).position⟩)

def fail {α : Type} (fault : Fault) : Lex α := do failFrom (← get).position fault

/-- Stop at a fault in what starts at a position, which is its whole place. -/
def failAt {α : Type} (position : Nat) (fault : Fault) : Lex α :=
  throw (.fault fault ⟨position, position⟩)

def note (fault : Fault) : Lex Unit :=
  modify fun s => if s.context.quiet then s else { s with noted := s.noted.or (some fault) }

def peek : Lex (Option Char) := return (← get).rest.head?

/-- The character after the next. -/
def peekSecond : Lex (Option Char) := return (← get).rest[1]?

/-- Do the next characters spell `text`? -/
def startsWith (text : String) : Lex Bool := return text.toList.isPrefixOf (← get).rest

def skip : Lex Unit := modify fun s =>
  match s.rest with
  | [] => s
  | c :: cs => { s with rest := cs, position := s.position + c.utf8Size }

/-- Pass `n` characters. -/
def skipMany : Nat → Lex Unit
  | 0 => pure ()
  | n + 1 => do skip; skipMany n

/-- Pass the next character if it is `c`. -/
def eat (c : Char) : Lex Bool := do
  if (← peek) == some c then
    skip
    return true
  return false

/-- The characters from an earlier place up to a position. -/
def textBetween (from_ : List Char) (start stop : Nat) : List Char :=
  match from_ with
  | [] => []
  | c :: cs => if start < stop then c :: textBetween cs (start + c.utf8Size) stop else []

def withText {α : Type} (action : Lex α) : Lex (α × String) := do
  let before ← get
  let result ← action
  let after ← get
  return (result, String.ofList (textBetween before.rest before.position after.position))

/-- Pass the characters that satisfy `p`. -/
def skipWhile (p : Char → Bool) : Lex Unit := modify fun s =>
  let rec go : List Char → Nat → List Char × Nat
    | [], position => ([], position)
    | c :: cs, position => if p c then go cs (position + c.utf8Size) else (c :: cs, position)
  let (rest, position) := go s.rest s.position
  { s with rest, position }

end Lex

end BreakpointProps.Script
