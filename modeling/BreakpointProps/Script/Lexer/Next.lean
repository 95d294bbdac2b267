import BreakpointProps.Script.Lexer.Literal

/-!
The next token of a source, and how each token changes what the lexer expects after it.
-/

namespace BreakpointProps.Script

namespace Lexer

/-- Does a brace after `last` open a block of statements rather than an object? -/
def opensBlock (scopes : List Scope) (last : Option Token) (lineBreak allowed : Bool) : Bool :=
  let scope := scopes.head?
  let byPosition : Option Bool := match last with
    | some (.punct .colon) =>
      if scope == some .braceStatement then some true
      else if scope == some .braceExpression then some false
      else none
    | _ => none
  byPosition.getD <| match last with
    | none => true
    | some (.word name _) =>
      if name == "return" || name == "yield" then lineBreak
      else if name == "else" then true
      else !allowed
    | some (.punct p) => match p with
      | .semi | .rparen | .lt | .gt | .arrow => true
      | .lbrace =>
        if scope == some .braceExpression && scopes[1]? == some .openingTag then true
        else scope == some .braceStatement
      | _ => !allowed
    | some _ => !allowed

/-- The scopes after a token, and whether an expression may follow it. -/
def scopesAfter (s : Lexer) (token : Token) : List Scope × Bool :=
  let scope := s.scopes.head?
  let afterDot := match s.last with
    | some (.punct .dot) => true
    | _ => false
  match token with
  | .word name _ =>
    if token.isKeyword && afterDot then (s.scopes, false)
    else if name == "function" || name == "class" then
      let isExpression :=
        s.expressionAllowed && !opensBlock s.scopes s.last s.lineBreak s.expressionAllowed
      let opened := if name == "function" then Scope.functionExpression else .classExpression
      (if isExpression then opened :: s.scopes else s.scopes, false)
    else if name == "of" && scope == some (.parenStatement true) then
      (s.scopes, !((s.last.map Token.precedesExpression).getD false))
    else if token.isPlainWord then
      let declares := match s.last with
        | some (.word last _) => last == "let" || last == "const" || last == "var"
        | _ => false
      (s.scopes, declares && s.lineBreakBeforeLast)
    else (s.scopes, token.precedesExpression)
  | .punct .rparen | .punct .rbrace =>
    match s.scopes with
    | [] | [_] => (s.scopes, true)
    | out :: rest =>
      let inner := rest.head?
      if out == .braceStatement
          && (inner == some .functionExpression || inner == some .classExpression) then
        (rest.drop 1, false)
      else if out == .substitution then (rest, inner != some .template)
      else (rest, !out.isExpression)
  | .punct .colon =>
    if scope == some .functionExpression || scope == some .classExpression then
      (s.scopes.drop 1, true)
    else (s.scopes, true)
  | .punct .lbrace =>
    if s.context.jsx && scope == some .openingTag then (.braceExpression :: s.scopes, true)
    else if s.context.jsx && scope == some .markup then (.substitution :: s.scopes, true)
    else if opensBlock s.scopes s.last s.lineBreak s.expressionAllowed then
      (.braceStatement :: s.scopes, true)
    else (.braceExpression :: s.scopes, true)
  | .punct .slash =>
    match s.last with
    | some .tagStart => (.closingTag :: s.scopes.drop 2, false)
    | _ => (s.scopes, true)
  | .punct .dollarBrace => (.substitution :: s.scopes, true)
  | .punct .lparen =>
    let opened : Scope := match s.last with
      | some (.word name _) =>
        if name == "if" || name == "with" || name == "while" then .parenStatement false
        else if name == "for" then .parenStatement true
        else .parenExpression
      | _ => .parenExpression
    (opened :: s.scopes, true)
  | .punct .increment | .punct .decrement => (s.scopes, s.expressionAllowed)
  | .punct .backquote =>
    if scope == some .template then (s.scopes.drop 1, false) else (.template :: s.scopes, false)
  | .tagStart => (.openingTag :: .markup :: s.scopes, false)
  | .tagEnd =>
    let closes := match s.last with
      | some (.punct .slash) => scope == some .openingTag
      | _ => false
    if closes || scope == some .closingTag then
      (s.scopes.drop 2, (s.scopes[2]?) == some .markup)
    else (s.scopes.drop 1, true)
  | other => (s.scopes, other.precedesExpression)

/-- The state after a token that starts at `start`: pending comments lead it. -/
def afterToken (s : Lexer) (token : Token) (start : Nat) : Lexer :=
  let (scopes, expressionAllowed) := s.scopesAfter token
  let leading := s.pending.map fun comment => ⟨.leads, start, comment⟩
  { s with
    attached := leading ++ s.attached
    pending := []
    templateFrom := match token with
      | .punct .backquote => start
      | _ => s.templateFrom
    scopes
    expressionAllowed
    last := some token
    lastEnd := s.position
    lineBreakBeforeLast := s.lineBreak }

end Lexer

namespace Lex

/-- The token that `c` alone or with `=` after it makes. -/
def withAssign (plain assigned : Punct) : Lex Token := do
  if ← eat '=' then return .punct assigned
  return .punct plain

/-- Pass the rest of a line that a conflict marker or a foreign comment takes up. -/
def foreignLine (skipped : Nat) (fault : Fault) : Lex Unit := do
  note fault
  lineComment skipped
  skipSpace

/-- The token that starts with an angle; nothing if it turns out to be a comment. -/
def angle (c : Char) : Lex (Option Token) := do
  let s ← get
  skip
  if s.context.inType && !s.context.joinsAngles then
    return some (.punct (if c == '<' then .lt else .gt))
  if c == '<' && (← startsWith "!--") then
    lineComment 3
    skipSpace
    note .legacyComment
    return none
  let mut op := if c == '<' then Punct.lt else .gt
  if ← eat c then
    op := if c == '<' then .shiftLeft else .shiftRight
    if c == '>' then
      if ← eat c then op := .shiftRightZero
  if ← eat '=' then
    return some <| .punct <| match op with
      | .lt => .ltEq
      | .gt => .gtEq
      | .shiftLeft => .shiftLeftAssign
      | .shiftRight => .shiftRightAssign
      | _ => .shiftRightZeroAssign
  if s.lineBreak && op == .shiftLeft && (← startsWith "<<<<< ") then
    foreignLine 5 .conflictMarker
    return none
  if s.lineBreak && op == .shiftRightZero && (← startsWith ">>>> ") then
    foreignLine 5 .conflictMarker
    return none
  return some (.punct op)

/-- The token that starts with an equals or an exclamation mark. -/
def equalsOrBang (c : Char) : Lex (Option Token) := do
  let s ← get
  skip
  if ← eat '=' then
    if ← eat '=' then
      if c == '!' then return some (.punct .notEqEq)
      if s.lineBreak && (← startsWith "====") then
        foreignLine 4 .conflictMarker
        return none
      return some (.punct .eqEqEq)
    return some (.punct (if c == '!' then .notEq else .eqEq))
  if c == '=' then
    if ← eat '>' then return some (.punct .arrow)
    return some (.punct .assign)
  return some (.punct .bang)

def sign (c : Char) : Lex (Option Token) := do
  let s ← get
  skip
  if ← eat c then
    if s.lineBreak && c == '-' then
      if ← eat '>' then
        foreignLine 0 .legacyComment
        return none
    return some (.punct (if c == '+' then .increment else .decrement))
  let token ← if c == '+' then withAssign .plus .plusAssign else withAssign .minus .minusAssign
  return some token

/-- A token of the common kind, at its first character; nothing if a comment was passed instead. -/
def plainTokenOnce : Lex (Option Token) := do
  match (← get).rest with
  | [] => return none
  | c :: rest =>
    let single (p : Punct) : Lex (Option Token) := do
      skip
      return some (.punct p)
    match c with
    | '(' => single .lparen
    | ')' => single .rparen
    | '[' => single .lbracket
    | ']' => single .rbracket
    | '{' => single .lbrace
    | '}' => single .rbrace
    | ';' => single .semi
    | ',' => single .comma
    | ':' => single .colon
    | '~' => single .tilde
    | '@' => single .at
    | '#' => single .hash
    | '\x60' => single .backquote
    | '"' | '\'' => some <$> string
    | '<' | '>' => angle c
    | '=' | '!' => equalsOrBang c
    | '+' | '-' => sign c
    | '.' =>
      match rest with
      | d :: more =>
        if d.isDigit then some <$> number
        else if d == '.' && more.head? == some '.' then
          skipMany 3
          return some (.punct .ellipsis)
        else single .dot
      | [] => single .dot
    | '*' =>
      skip
      if ← eat '*' then some <$> withAssign .starStar .starStarAssign
      else some <$> withAssign .star .starAssign
    | '%' =>
      skip
      some <$> withAssign .percent .percentAssign
    | '/' =>
      skip
      some <$> withAssign .slash .slashAssign
    | '^' =>
      skip
      some <$> withAssign .caret .caretAssign
    | '&' =>
      skip
      if ← eat '&' then some <$> withAssign .ampAmp .ampAmpAssign
      else some <$> withAssign .amp .ampAssign
    | '|' =>
      skip
      if ← eat '|' then some <$> withAssign .barBar .barBarAssign
      else some <$> withAssign .bar .barAssign
    | '?' =>
      skip
      if ← eat '?' then some <$> withAssign .questionQuestion .questionQuestionAssign
      else return some (.punct .question)
    | _ =>
      if c.isDigit then some <$> number
      else if c == '\\' || Text.isIdentifierStart c then some <$> word
      else
        let start := (← get).position
        skip
        failAt start (.unexpectedCharacter c)

/-- A token of the common kind. A zero character ends the source. -/
def plainToken : Nat → Lex (Option Token)
  | 0 => return none
  | n + 1 => do
    match ← peek with
    | none => return none
    | some '\x00' =>
      skip
      return none
    | some _ =>
      match ← plainTokenOnce with
      | some token => return some token
      | none => plainToken n

/-- A token inside a tag, if the next character has a meaning of its own there. -/
def tagToken? : Lex (Option Token) := do
  let s ← get
  match s.rest with
  | [] => return none
  | c :: rest =>
    let scope := s.scopes.head?
    if scope == some .openingTag || scope == some .closingTag then
      if Text.isIdentifierStart c then return some (← jsxWord)
      if c == '>' then
        skip
        return some .tagEnd
      if (c == '"' || c == '\'') && scope == some .openingTag then return some (← jsxString)
    if c == '<' && s.expressionAllowed && rest.head? != some '!' then
      skip
      if s.lineBreak && (← startsWith "<<<<<< ") then
        foreignLine 6 .conflictMarker
        return none
      return some .tagStart
    return none

/-- A token between an opening tag and its closing tag. -/
def markupToken : Lex (Option Token) := do
  let s ← get
  match s.rest.head? with
  | some '<' =>
    if s.expressionAllowed then
      skip
      return some .tagStart
    plainToken s.size
  | some '{' => plainToken s.size
  | _ => return some (← markupText)

/-- The token that starts at the next character. -/
def tokenHere : Lex (Option Token) := do
  let s ← get
  let outsideNames := s.context.jsx && !s.context.inPropertyName && !s.context.inType
  if outsideNames && s.scopes.head? == some .markup then return ← markupToken
  if outsideNames then
    if let some token ← tagToken? then return some token
  if s.scopes.head? == some .template then return some (← templatePart)
  plainToken s.size

/-- At the end of the source, comments that lead nothing trail the last token, and all comments are
settled. -/
def settleComments : Lex Unit := modify fun s =>
  let attachment := if s.lastEnd == 1 then Attachment.leads else .trails
  { s with pending := []
           attached := []
           settled := s.pending.map (⟨attachment, s.lastEnd, ·⟩) ++ s.attached ++ s.settled }

/-- A fault in a token becomes a token of its own. -/
def orMalformed (read : Lex (Option Token)) : Lex (Option Token) := fun s =>
  match read s with
  | .error (.fault fault place) s' => .ok (some (.malformed fault place)) s'
  | other => other

/-- The first line of a script, if it names an interpreter. -/
def shebang : Lex Token := do
  skipMany 2
  let (_, text) ← withText (skipWhile fun c => !isLineEnd c)
  return .shebang text

/-- The next token with its place; nothing at the end of the source. -/
def next : Lex (Option Lexeme) := do
  let finish (token : Option Token) (start : Nat) : Lex (Option Lexeme) := do
    match token with
    | none => return none
    | some token =>
      let lineBreak := (← get).lineBreak
      modify (·.afterToken token start)
      return some ⟨token, ⟨start, (← get).position⟩, lineBreak⟩
  if let some start := (← get).regexpFrom then
    return ← finish (← orMalformed (some <$> regexp start)) start
  if (← get).atStart && (← startsWith "#!") then
    let start := (← get).position
    return ← finish (← orMalformed (some <$> shebang)) start
  modify fun s => { s with lineBreak := s.atStart, atStart := false }
  if !((← get).scopes.head?.any Scope.keepsBlanks) then skipSpace
  let start := (← get).position
  if (← peek).isNone then
    settleComments
    return none
  finish (← orMalformed tokenHere) start

end Lex

end BreakpointProps.Script
