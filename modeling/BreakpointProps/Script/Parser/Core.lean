import BreakpointProps.Script.Lexer.Next
import BreakpointProps.Script.Outline

/-!
The state of a parser and its basic moves: looking at the next tokens, passing them, refusing them,
and trying one reading before another.
-/

namespace BreakpointProps.Script

/-- The state of a parser. -/
structure Parser where
  lexer : Lexer
  current : Option Lexeme := none
  /-- The token after the current one, once it was looked at. -/
  ahead : Option (Option Lexeme) := none
  lastSpan : Span := ⟨1, 1⟩
  /-- The labels of the enclosing statements. -/
  labels : List String := []
  /-- Where the head of an arrow function may start. -/
  arrowStart : Option Nat := none
  /-- Where the arrays and objects start whose last comma is followed by nothing. -/
  trailingCommas : List Nat := []
  deriving Inhabited

/-- Reading with a parser. -/
abbrev Parse := EStateM Halt Parser

/-- What can be read at a place and may hold others of its kind. -/
inductive Goal where
  /-- An expression, with commas. -/
  | expression
  /-- An expression without commas. -/
  | assignment
  | unary
  /-- An expression that a call, a member or an update may start with. -/
  | operand
  /-- An object between braces. -/
  | object
  /-- A statement or an item of a module. -/
  | statement (declarations topLevel : Bool)
  /-- A target of a declaration. -/
  | pattern
  /-- A type. -/
  | type
  | nonConditionalType
  | typeOperand
  /-- A name with what may stand behind it where a type extends or implements it. -/
  | supertype
  /-- An element of markup whose opening angle is at `start` and was passed. -/
  | element (start : Nat)
  deriving Inhabited

/-- Readers for all goals. -/
abbrev Grammar := Goal → Parse Node

namespace Parse

/-- Run a lexer action on the lexer of the parser. -/
def lex {α : Type} (action : Lex α) : Parse α := fun s =>
  match action s.lexer with
  | .ok a lexer => .ok a { s with lexer }
  | .error halt lexer => .error halt { s with lexer }

/-- The place of the current token; at the end of the source, of the last one. -/
def currentSpan : Parse Span := do
  let s ← get
  return (s.current.map Lexeme.span).getD s.lastSpan

def stopAt {α : Type} (place : Span) (fault : Fault) : Parse α := throw (.fault fault place)

def stopAtEnd {α : Type} : Parse α := do
  let stop := (← get).lexer.position
  stopAt ⟨stop, stop⟩ .endOfInput

/-- Run what was attempted from `outer` on. A fault that stops it says so. -/
def attempting {α : Type} (outer : Span) (attempted : String) (action : Parse α) : Parse α := fun s =>
  match action s with
  | .error (.fault fault place) t => .error (.fault (.during fault place outer attempted) place) t
  | other => other

/-- What is known about this place. -/
def context : Parse Context := return (← get).lexer.context

/-- Run with other knowledge, and return to the old one. -/
def within {α : Type} (f : Context → Context) (action : Parse α) : Parse α := fun s =>
  let old := s.lexer.context
  let back (t : Parser) : Parser := { t with lexer := { t.lexer with context := old } }
  match action { s with lexer := { s.lexer with context := f old } } with
  | .ok a t => .ok a (back t)
  | .error halt t => .error halt (back t)

/-- Read as far as it goes. A fault ends what is read here and is forgotten. -/
def regardless {α : Type} (action : Parse α) : Parse Unit := fun s =>
  match action s with
  | .ok _ t | .error (.fault _ _) t => .ok () t
  | .error .breakdown t => .error .breakdown t

def includingIn {α : Type} (include_ : Bool) (action : Parse α) : Parse α :=
  within (fun c => { c with includeIn := include_ }) action

def current? : Parse (Option Token) := return (← get).current.map Lexeme.token

def ahead? : Parse (Option Token) := do
  match (← get).ahead with
  | some lexeme => return lexeme.map Lexeme.token
  | none =>
    let lexeme ← lex Lex.next
    modify fun s => { s with ahead := some lexeme }
    return lexeme.map Lexeme.token

/-- Does a line end between the current token and the one after it? -/
def lineBreakAhead : Parse Bool := do
  let _ ← ahead?
  return match (← get).ahead with
    | some (some lexeme) => lexeme.afterLineBreak
    | _ => false

/-- Pass the current token. -/
def bump : Parse Unit := do
  let s ← get
  let lastSpan := (s.current.map Lexeme.span).getD s.lastSpan
  match s.ahead with
  | some lexeme => set { s with lastSpan, current := lexeme, ahead := none }
  | none =>
    set { s with lastSpan, current := none }
    let lexeme ← lex Lex.next
    modify fun s => { s with current := lexeme }

/-- The position where the current token starts; at the end of the source, the end of the last. -/
def position : Parse Nat := do
  let s ← get
  return (s.current.map (·.span.lo)).getD s.lastSpan.hi

/-- The place of the last token that was passed. -/
def lastSpan : Parse Span := return (← get).lastSpan

def spanFrom (start : Nat) : Parse Span := return ⟨start, (← get).lastSpan.hi⟩

/-- Does a line end before the current token? -/
def afterLineBreak : Parse Bool := return ((← get).current.map Lexeme.afterLineBreak).getD false

def describeCurrent : Parse String := return ((← current?).map Token.describe).getD "<eof>"

/-- Refuse the script at a place. Where the current token is malformed, that is the fault. -/
def failAt {α : Type} (place : Span) (fault : Fault) : Parse α := do
  match ← current? with
  | some (.malformed inner innerPlace) =>
    bump
    stopAt innerPlace inner
  | _ => stopAt place fault

def fail {α : Type} (fault : Fault) : Parse α := do failAt (← currentSpan) fault

/-- Note a fault and go on. A malformed current token is passed and noted first. -/
def note (fault : Fault) : Parse Unit := do
  if (← context).quiet then return
  match ← current? with
  | some (.malformed inner _) =>
    bump
    lex (Lex.note inner)
  | _ => pure ()
  lex (Lex.note fault)

/-- Refuse the current token. -/
def unexpected {α : Type} (wanted : String) : Parse α := do
  fail (.unexpected (← describeCurrent) wanted)

/-- How a message names the kind of the current token. -/
def describeKind : Parse String := return match ← current? with
  | some token => "Some(" ++ token.kind ++ ")"
  | none => "None"

/-- Refuse the kind of the current token. -/
def unexpectedKind {α : Type} (wanted : String) : Parse α := do
  fail (.unexpected (← describeKind) wanted)

/-- The current token; the end of the source is refused. -/
def needCurrent : Parse Token := do
  match ← current? with
  | some token => return token
  | none => stopAtEnd

def at_ (p : Punct) : Parse Bool := return (← current?).any (Token.isPunct p)

def atWord (name : String) : Parse Bool := return (← current?).any (Token.isWord name)

/-- Is the token after the current one this punctuation? -/
def aheadIs (p : Punct) : Parse Bool := return (← ahead?).any (Token.isPunct p)

def aheadIsWord (name : String) : Parse Bool := return (← ahead?).any (Token.isWord name)

/-- Is the token after the current one a word of any kind? -/
def aheadIsName : Parse Bool := return ((← ahead?).bind Token.word?).isSome

def eat (p : Punct) : Parse Bool := do
  if ← at_ p then
    bump
    return true
  return false

def eatWord (name : String) : Parse Bool := do
  if ← atWord name then
    bump
    return true
  return false

def expect (p : Punct) : Parse Unit := do
  if !(← eat p) then fail (.expected p.text (← describeCurrent))

def expectWord (name : String) : Parse Unit := do
  if !(← eatWord name) then fail (.expected name (← describeCurrent))

/-- Can the statement end here? A semicolon is implied before a closing brace, at the end of the
source and at a line end. -/
def atSemicolon : Parse Bool := do
  match ← current? with
  | none | some (.punct .semi) | some (.punct .rbrace) => return true
  | some _ => afterLineBreak

/-- Pass the end of a statement if it can end here. -/
def eatSemicolon : Parse Bool := do
  if ← eat .semi then return true
  atSemicolon

/-- The statement has to end here. -/
def expectSemicolon : Parse Unit := do
  if !(← eatSemicolon) then fail (.expected ";" (← describeCurrent))

def atEnd : Parse Bool := return (← current?).isNone

/-- Try a reading where types are recognised: without success nothing happened, except that comments
settled by reaching the end of the source stay settled. -/
def attempt {α : Type} (action : Parse (Option α)) : Parse (Option α) := fun s =>
  if !s.lexer.context.typescript then .ok none s
  else
    let quiet := s.lexer.context.quiet
    let setQuiet (q : Bool) (t : Parser) : Parser :=
      { t with lexer := { t.lexer with context := { t.lexer.context with quiet := q } } }
    let back (t : Parser) : Parser :=
      { s with lexer := { s.lexer with settled := t.lexer.settled } }
    match action (setQuiet true s) with
    | .ok (some a) t => .ok (some a) (setQuiet quiet t)
    | .ok none t => .ok none (back t)
    | .error .breakdown t => .error .breakdown t
    | .error _ t => .ok none (back t)

/-- Read ahead and come back. -/
def lookAhead (action : Parse Bool) : Parse Bool := fun s =>
  let quiet := { s with lexer := { s.lexer with context := { s.lexer.context with quiet := true } } }
  let back (t : Parser) : Parser := { s with lexer := { s.lexer with settled := t.lexer.settled } }
  match action quiet with
  | .ok b t => .ok b (back t)
  | .error halt t => .error halt (back t)

/-- Run where only the outermost scope counts, so that angles are angles. -/
def withoutScopes {α : Type} (action : Parse α) : Parse α := do
  let scopes := (← get).lexer.scopes
  modify fun s => { s with lexer := { s.lexer with scopes := scopes.drop (scopes.length - 1) } }
  let result ← action
  modify fun s => { s with lexer := { s.lexer with scopes } }
  return result

/-- Say whether an expression may start after the current token. -/
def allowExpression (allowed : Bool) : Parse Unit :=
  modify fun s => { s with lexer := { s.lexer with expressionAllowed := allowed } }

def dropScopes (n : Nat) : Parse Unit :=
  modify fun s => { s with lexer := { s.lexer with scopes := s.lexer.scopes.drop n } }

def inType {α : Type} (action : Parse α) : Parse α :=
  within (fun c => { c with inType := true }) action

/-- Take a step until one is the last. The steps are bounded by the size of the source. -/
def loopSteps {σ β : Type} (step : σ → Parse (σ ⊕ β)) : Nat → σ → Parse β
  | 0, _ => throw .breakdown
  | n + 1, state => do
    match ← step state with
    | .inl next => loopSteps step n next
    | .inr result => return result

/-- Take a step until one is the last. -/
def loop {σ β : Type} (state : σ) (step : σ → Parse (σ ⊕ β)) : Parse β := do
  loopSteps step ((← get).lexer.size + 8) state

/-- Read items while the test holds. -/
def many {α : Type} (test : Parse Bool) (item : Parse α) : Parse (List α) :=
  loop ([] : List α) fun acc => do
    if ← test then return .inl ((← item) :: acc)
    return .inr acc.reverse

/-- Is the current token a word that can name something that is looked up? -/
def atReference : Parse Bool := do
  match ← current? with
  | some (.word name _) => return !Lex.reservedWords.contains name
  | _ => return false

def atName : Parse Bool := return ((← current?).bind Token.word?).isSome

end Parse

end BreakpointProps.Script
