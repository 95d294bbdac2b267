/-!
What can be wrong with a YAML text, and how it is said.
-/

namespace BreakpointProps.Yaml

/-- A place in a text: the lines before it, and the characters before it on its line and in all. -/
structure Mark where
  index : Nat := 0
  line : Nat := 0
  column : Nat := 0
  deriving DecidableEq, Repr, Inhabited

namespace Mark

/-- Is this the start of the text, which is never told? -/
def isStart (mark : Mark) : Bool := mark.line == 0 && mark.column == 0

/-- The place as it is told, counted from one. -/
def text (mark : Mark) : String := s!"line {mark.line + 1} column {mark.column + 1}"

def suffix (mark : Mark) : String := if mark.isStart then "" else " at " ++ mark.text

end Mark

/-- What is wrong at a place of a text. -/
inductive Problem where
  | noColon
  | noToken
  | entryNotAllowed
  | keyNotAllowed
  | valueNotAllowed
  | unknownDirective
  | noDirectiveName
  | badDirectiveName
  | noLineEnd
  | noVersionPoint
  | longVersion
  | noVersion
  | noHandle
  | noBlank
  | noBlankOrBreak
  | noUri
  | noOctet
  | badFirstOctet
  | badNextOctet
  | noName
  | noAngle
  | zeroIndent
  | tabInIndent
  | tabBeforeIndent
  | documentMark
  | endOfText
  | unknownEscape
  | noHexDigit
  | badCode
  | unexpectedColon
  | noDocumentStart
  | secondVersion
  | otherVersion
  | secondHandle
  | unknownHandle
  | noContent
  | noDash
  | noKey
  | noCommaOrBracket
  | noCommaOrBrace
  deriving DecidableEq, Repr, Inhabited

def Problem.message : Problem → String
  | noColon => "could not find expected ':'"
  | noToken => "found character that cannot start any token"
  | entryNotAllowed => "block sequence entries are not allowed in this context"
  | keyNotAllowed => "mapping keys are not allowed in this context"
  | valueNotAllowed => "mapping values are not allowed in this context"
  | unknownDirective => "found unknown directive name"
  | noDirectiveName => "could not find expected directive name"
  | badDirectiveName => "found unexpected non-alphabetical character"
  | noLineEnd => "did not find expected comment or line break"
  | noVersionPoint => "did not find expected digit or '.' character"
  | longVersion => "found extremely long version number"
  | noVersion => "did not find expected version number"
  | noHandle => "did not find expected '!'"
  | noBlank => "did not find expected whitespace"
  | noBlankOrBreak => "did not find expected whitespace or line break"
  | noUri => "did not find expected tag URI"
  | noOctet => "did not find URI escaped octet"
  | badFirstOctet => "found an incorrect leading UTF-8 octet"
  | badNextOctet => "found an incorrect trailing UTF-8 octet"
  | noName => "did not find expected alphabetic or numeric character"
  | noAngle => "did not find the expected '>'"
  | zeroIndent => "found an indentation indicator equal to 0"
  | tabInIndent => "found a tab character where an indentation space is expected"
  | tabBeforeIndent => "found a tab character that violates indentation"
  | documentMark => "found unexpected document indicator"
  | endOfText => "found unexpected end of stream"
  | unknownEscape => "found unknown escape character"
  | noHexDigit => "did not find expected hexdecimal number"
  | badCode => "found invalid Unicode character escape code"
  | unexpectedColon => "found unexpected ':'"
  | noDocumentStart => "did not find expected <document start>"
  | secondVersion => "found duplicate %YAML directive"
  | otherVersion => "found incompatible YAML document"
  | secondHandle => "found duplicate %TAG directive"
  | unknownHandle => "found undefined tag handle"
  | noContent => "did not find expected node content"
  | noDash => "did not find expected '-' indicator"
  | noKey => "did not find expected key"
  | noCommaOrBracket => "did not find expected ',' or ']'"
  | noCommaOrBrace => "did not find expected ',' or '\x7d'"

/-- What was being read when a problem came up. -/
inductive Activity where
  | simpleKey
  | nextToken
  | directive
  | version
  | handle
  | handleParts
  | anchor
  | aliasName
  | tag
  | tagParts
  | blockScalar
  | quotedScalar
  | quotedParts
  | plainScalar
  | node
  | blockNode
  | flowNode
  | blockCollection
  | blockMapping
  | flowSequence
  | flowMapping
  deriving DecidableEq, Repr, Inhabited

def Activity.text : Activity → String
  | simpleKey => "while scanning a simple key"
  | nextToken => "while scanning for the next token"
  | directive => "while scanning a directive"
  | version => "while scanning a %YAML directive"
  | handle => "while scanning a %TAG directive"
  | handleParts => "while parsing a %TAG directive"
  | anchor => "while scanning an anchor"
  | aliasName => "while scanning an alias"
  | tag => "while scanning a tag"
  | tagParts => "while parsing a tag"
  | blockScalar => "while scanning a block scalar"
  | quotedScalar => "while scanning a quoted scalar"
  | quotedParts => "while parsing a quoted scalar"
  | plainScalar => "while scanning a plain scalar"
  | node => "while parsing a node"
  | blockNode => "while parsing a block node"
  | flowNode => "while parsing a flow node"
  | blockCollection => "while parsing a block collection"
  | blockMapping => "while parsing a block mapping"
  | flowSequence => "while parsing a flow sequence"
  | flowMapping => "while parsing a flow mapping"

/-- What is wrong with a text. -/
inductive Flaw where
  /-- A character that no text may hold, after so many bytes. -/
  | controlCharacter (offset : Nat)
  /-- A problem at a place, and what was being read since which place. -/
  | problem (kind : Problem) (place : Mark) (context : Option (Activity × Mark))
  deriving DecidableEq, Repr, Inhabited

/-- Where an activity began, unless the problem lies there as well. -/
def Activity.suffix (start place : Mark) : String :=
  if start.line == place.line && start.column == place.column then "" else start.suffix

def Flaw.message : Flaw → String
  | controlCharacter offset =>
    "control characters are not allowed" ++ if offset == 0 then "" else s!" at position {offset}"
  | problem kind place context =>
    kind.message ++ place.suffix ++
      match context with
      | some (activity, start) => ", " ++ activity.text ++ Activity.suffix start place
      | none => ""

end BreakpointProps.Yaml
