import BreakpointProps.Json.Number
import BreakpointProps.Text.CharClass

/-!
What can be wrong with a JSON text or with a value that should have a certain form, and how it is
said.
-/

namespace BreakpointProps.Json

/-- Why a text is no JSON. -/
inductive Flaw where
  | endInList
  | endInObject
  | endInString
  | endInValue
  | expectedColon
  | expectedCommaOrBracket
  | expectedCommaOrBrace
  | expectedIdent
  | expectedValue
  | invalidEscape
  | invalidNumber
  | numberOutOfRange
  | controlCharacter
  | keyNotString
  | loneSurrogate
  | trailingComma
  | trailingCharacters
  | endOfHexEscape
  | tooDeep
  deriving DecidableEq, Repr, Inhabited

def Flaw.message : Flaw → String
  | endInList => "EOF while parsing a list"
  | endInObject => "EOF while parsing an object"
  | endInString => "EOF while parsing a string"
  | endInValue => "EOF while parsing a value"
  | expectedColon => "expected \x60:\x60"
  | expectedCommaOrBracket => "expected \x60,\x60 or \x60]\x60"
  | expectedCommaOrBrace => "expected \x60,\x60 or \x60\x7d\x60"
  | expectedIdent => "expected ident"
  | expectedValue => "expected value"
  | invalidEscape => "invalid escape"
  | invalidNumber => "invalid number"
  | numberOutOfRange => "number out of range"
  | controlCharacter => "control character (\\u0000-\\u001F) found while parsing a string"
  | keyNotString => "key must be a string"
  | loneSurrogate => "lone leading surrogate in hex escape"
  | trailingComma => "trailing comma"
  | trailingCharacters => "trailing characters"
  | endOfHexEscape => "unexpected end of hex escape"
  | tooDeep => "recursion limit exceeded"

/-- What was found where something else was expected. -/
inductive Found where
  | null
  | bool (b : Bool)
  | number (n : Number)
  | string (s : String)
  | sequence
  | map
  deriving Inhabited

def Found.text : Found → String
  | null => "null"
  | bool b => "boolean \x60" ++ toString b ++ "\x60"
  | number (.int n) => "integer \x60" ++ toString n ++ "\x60"
  | number (.double x) => "floating point \x60" ++ Decimal.Layout.json.text x ++ "\x60"
  | string s => "string " ++ Text.quoted s
  | sequence => "sequence"
  | map => "map"

/-- Names in backticks: two joined by "or", more behind "one of". -/
def alternatives (names : List String) : String :=
  let ticked := names.map fun name => "\x60" ++ name ++ "\x60"
  match ticked with
  | [one] => one
  | [one, other] => one ++ " or " ++ other
  | _ => "one of " ++ ", ".intercalate ticked

inductive Cause where
  | flaw (f : Flaw)
  | invalidType (found : Found) (expected : String)
  | invalidValue (found : Found) (expected : String)
  | invalidLength (length : Nat) (expected : String)
  | unknownVariant (name : String) (known : List String)
  | missingField (name : String)
  | duplicateField (name : String)
  /-- The value has none of the forms that this type allows. -/
  | noForm (type : String)
  /-- The value is no point in time. -/
  | noTime (message : String)
  deriving Inhabited

def Cause.message : Cause → String
  | flaw f => f.message
  | invalidType found expected => "invalid type: " ++ found.text ++ ", expected " ++ expected
  | invalidValue found expected => "invalid value: " ++ found.text ++ ", expected " ++ expected
  | invalidLength length expected => s!"invalid length {length}, expected {expected}"
  | unknownVariant name known => "unknown variant \x60" ++ name ++ "\x60, expected " ++ alternatives known
  | missingField name => "missing field \x60" ++ name ++ "\x60"
  | duplicateField name => "duplicate field \x60" ++ name ++ "\x60"
  | noForm type => "data did not match any variant of untagged enum " ++ type
  | noTime message => message

/-- What is wrong after how many bytes of a text. -/
structure Fault where
  cause : Cause
  offset : Nat
  deriving Inhabited

/-- A line, counted from one, and the number of bytes before a place in it. -/
structure Place where
  line : Nat
  column : Nat
  deriving DecidableEq, Repr, Inhabited

/-- The place after so many bytes of a text. -/
def Place.after (text : String) (offset : Nat) : Place :=
  go text.toList offset ⟨1, 0⟩
where
  go : List Char → Nat → Place → Place
    | [], _, place => place
    | c :: rest, left, place =>
      if left < c.utf8Size then ⟨place.line, place.column + left⟩
      else if c == '\n' then go rest (left - 1) ⟨place.line + 1, 0⟩
      else go rest (left - c.utf8Size) ⟨place.line, place.column + c.utf8Size⟩

def Fault.messageIn (text : String) (fault : Fault) : String :=
  let place := Place.after text fault.offset
  s!"{fault.cause.message} at line {place.line} column {place.column}"

/-- The message of a fault in a value that stands in no text. -/
def Fault.message (fault : Fault) : String := fault.cause.message

end BreakpointProps.Json
