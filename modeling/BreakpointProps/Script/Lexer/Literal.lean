import BreakpointProps.Script.Lexer.Escape
import BreakpointProps.Script.Lexer.Reference

/-!
Words, numbers, strings, templates, regular expressions and markup text.
-/

namespace BreakpointProps.Script.Lex

open BreakpointProps.Text (isIdentifierStart isIdentifierPart)

def noteAll (faults : List Fault) : Lex Unit := faults.forM note

/-- The words that cannot name anything in a module. -/
def reservedWords : List String :=
  ["null", "true", "false", "break", "case", "catch", "continue", "debugger", "default", "do",
   "export", "else", "finally", "for", "function", "if", "return", "switch", "throw", "try", "var",
   "const", "while", "with", "new", "this", "super", "class", "extends", "import", "in",
   "instanceof", "typeof", "void", "delete", "enum", "let", "await", "yield", "implements",
   "package", "protected", "interface", "private", "public"]

/-- The characters of a word, read up to the first that cannot be part of one. -/
def wordSteps : Nat → List Char → Bool → Lex (List Char × Bool)
  | 0, acc, escaped => return (acc.reverse, escaped)
  | n + 1, acc, escaped => do
    match ← peek with
    | some '\\' =>
      let start := (← get).position
      skip
      if (← peek) != some 'u' then failAt start .expectedUnicodeEscape
      skip
      let escape := Escape.unicode (← get).rest
      noteAll escape.noted
      skipMany (escape.length - 1)
      match escape.value with
      | .error fault => fail fault
      | .ok cs =>
        if !(cs.head?.any isIdentifierPart) then note .invalidIdentifierCharacter
        wordSteps n (cs.reverse ++ acc) true
    | some c =>
      if (if acc.isEmpty then isIdentifierStart c else isIdentifierPart c) then
        skip
        wordSteps n (c :: acc) escaped
      else return (acc.reverse, escaped)
    | none => return (acc.reverse, escaped)

/-- An identifier or a keyword. A reserved word must not be written with an escape. -/
def word : Lex Token := do
  let start := (← get).position
  let (name, escaped) ← wordSteps (← get).size [] false
  let name := String.ofList name
  if escaped && reservedWords.contains name then
    failFrom start (.escapedReservedWord name)
  return .word name escaped

/-- The name of a tag or an attribute. -/
def jsxWord : Lex Token := do
  let (_, name) ← withText (skipWhile fun c => isIdentifierPart c || c == '-')
  return .jsxName name

/-- Read digits of a radix; at least one is needed. -/
def digits (radix : Nat) : Lex Escape.Digits := do
  let start := (← get).position
  let d := Escape.digits radix none (← get).rest none {}
  noteAll d.noted
  skipMany d.length
  if d.count == 0 then failFrom start (.expectedDigit radix)
  return d

/-- Digits that may be missing. -/
def optionalDigits : Lex Unit := do
  let d := Escape.digits 10 none (← get).rest none {}
  noteAll d.noted
  skipMany d.length

/-- No identifier follows a number directly. -/
def noIdentifier : Lex Unit := do
  if ((← peek).map isIdentifierStart).getD false then fail .identifierAfterNumber

/-- What follows the mark of a radix. -/
def radixNumber (radix : Nat) : Lex (Bool) := do
  skipMany 2
  let _ ← digits radix
  if ← eat 'n' then return true
  noIdentifier
  return false

def fractionAndExponent : Lex Unit := do
  if ← eat '.' then optionalDigits
  if (← peek) == some 'e' || (← peek) == some 'E' then
    skip
    match ← peek with
    | none => fail .numberEndsInExponent
    | some c => if c == '+' || c == '-' then skip
    let _ ← digits 10
  noIdentifier

/-- The end of a number whose zero in front makes it octal, which is noted. -/
def octalEnd : Lex Bool := do
  noIdentifier
  note (if (← get).context.typescript then .octalNumber else .legacyOctal)
  return false

/-- A decimal number; yes if it is a big integer. A zero in front of other digits is a legacy form,
octal unless there is a digit that octal numbers do not have. -/
def decimalNumber : Lex Bool := do
  if (← peek) == some '.' then
    fractionAndExponent
    return false
  let zero := (← peek) == some '0'
  let d ← digits 10
  if zero && 1 < d.length then
    if d.digits.any fun c => c == '8' || c == '9' then note .legacyDecimal else return ← octalEnd
  else if ← eat 'n' then return true
  fractionAndExponent
  return false

def number : Lex Token := do
  let read : Lex Bool := do
    match (← get).rest with
    | '0' :: c :: _ =>
      if c == 'x' || c == 'X' then radixNumber 16
      else if c == 'o' || c == 'O' then radixNumber 8
      else if c == 'b' || c == 'B' then radixNumber 2
      else decimalNumber
    | _ => decimalNumber
  let (big, raw) ← withText read
  return if big then .bigint raw else .num raw

/-- The characters of a string up to its quote. A line end or the end of the source leaves the string
unterminated, which is noted. -/
def stringSteps (quote : Char) : Nat → List Char → Lex (List Char)
  | 0, acc => return acc
  | n + 1, acc => do
    match ← peek with
    | none =>
      note .unterminatedString
      return acc
    | some c =>
      if c == quote then
        skip
        return acc
      else if c == '\\' then
        let start := (← get).position
        skip
        let escape := Escape.read false (← get).rest
        noteAll escape.noted
        skipMany escape.length
        match escape.value with
        | .error fault => failFrom start fault
        | .ok cs => stringSteps quote n (cs.reverse ++ acc)
      else if c == '\n' || c == '\r' then
        note .unterminatedString
        return acc
      else
        skip
        stringSteps quote n (c :: acc)

def string : Lex Token := do
  let read : Lex (List Char) := do
    let quote := (← peek).getD '"'
    skip
    stringSteps quote (← get).size []
  let (value, raw) ← withText read
  return .str (String.ofList value.reverse) raw

/-- The value of an attribute between quotes. The closing quote is passed only where two more
characters follow it. -/
def jsxString : Lex Token := do
  let read : Lex (List Char) := do
    let quote := (← peek).getD '"'
    skip
    let (_, body) ← withText (skipWhile (· != quote))
    let decoded := Decoded.ofAttribute 0 body.toList
    if decoded.broken then throw .breakdown
    match (← get).rest with
    | [] => note .unterminatedString
    | _ :: _ :: _ :: _ => skip
    | _ => pure ()
    return decoded.value
  let (value, raw) ← withText read
  return .str (String.ofList value) raw

/-- Pass markup text, which starts at a position, up to the next angle or brace. -/
def markupSteps (start : Nat) : Nat → Lex Unit
  | 0 => pure ()
  | n + 1 => do
    match ← peek with
    | none => failFrom start .unterminatedMarkup
    | some '<' | some '{' => pure ()
    | some '>' =>
      note (.strayInMarkup ["\x60\x7b'>'\x7d\x60", "\x60&gt;\x60"])
      skip
      markupSteps start n
    | some '}' =>
      note (.strayInMarkup ["\x60\x7b'\x7d'\x7d\x60", "\x60&rbrace;\x60"])
      skip
      markupSteps start n
    | some '&' =>
      skip
      match Reference.read (← get).rest with
      | .broken => throw .breakdown
      | .character _ length => skipMany length
      | .none => pure ()
      markupSteps start n
    | some _ =>
      skip
      markupSteps start n

def markupText : Lex Token := do
  let (_, raw) ← withText (do markupSteps (← get).position (← get).size)
  return .jsxText raw

/-- What the text of a template, which starts at a position, stands for up to a substitution or its
end, last character first. -/
def templateSteps (start : Nat) :
    Nat → Except (Fault × Span) (List Char) → Lex (Except (Fault × Span) (List Char))
  | 0, acc => return acc
  | n + 1, acc => do
    let push (cs : List Char) := acc.map (cs.reverse ++ ·)
    match (← get).rest with
    | [] => failFrom start .unterminatedTemplate
    | '\x60' :: _ => return acc
    | '$' :: '{' :: _ => return acc
    | '\\' :: rest =>
      let before := (← get).position
      skip
      let escape := Escape.read true rest
      noteAll escape.noted
      skipMany escape.length
      match escape.value with
      | .error fault => templateSteps start n (.error (fault, ⟨before, (← get).position⟩))
      | .ok cs => templateSteps start n (push cs)
    | '\r' :: '\n' :: _ =>
      skipMany 2
      templateSteps start n (push ['\n'])
    | '\r' :: _ =>
      skip
      templateSteps start n (push ['\n'])
    | c :: _ =>
      skip
      templateSteps start n (push [c])

def templatePart : Lex Token := do
  let s ← get
  let afterText := match s.last with
    | some (.template _ _) => true
    | _ => false
  match s.rest with
  | '$' :: '{' :: _ =>
    if afterText then
      skipMany 2
      return .punct .dollarBrace
  | '\x60' :: _ =>
    if afterText then
      skip
      return .punct .backquote
  | _ => pure ()
  let (value, raw) ← withText (templateSteps s.position s.size (.ok []))
  return .template (value.map fun cs => String.ofList cs.reverse) raw

/-- Pass the body of a regular expression whose slash is at a position. -/
def regexpSteps (start : Nat) : Nat → Bool → Bool → Lex Unit
  | 0, _, _ => pure ()
  | n + 1, escaped, inClass => do
    match ← peek with
    | none => failFrom start .unterminatedRegexp
    | some c =>
      if isLineEnd c then failFrom start .unterminatedRegexp
      else if escaped then
        skip
        regexpSteps start n false inClass
      else if c == '/' && !inClass then pure ()
      else
        skip
        let inClass := if c == '[' then true else if c == ']' then false else inClass
        regexpSteps start n (c == '\\') inClass

/-- A regular expression whose first slash, at a position, was passed. -/
def regexp (start : Nat) : Lex Token := do
  let (_, body) ← withText (do regexpSteps start (← get).size false false)
  if !(← eat '/') then failFrom start .unterminatedRegexp
  let (_, flags) ← withText (skipWhile isIdentifierPart)
  return .regexp body flags

end BreakpointProps.Script.Lex
