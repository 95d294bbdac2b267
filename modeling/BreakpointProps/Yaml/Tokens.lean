import BreakpointProps.Yaml.Token.Block
import BreakpointProps.Yaml.Token.Scalar

/-!
The tokens of a text, read as they are asked for. Whether something is the key of a mapping is known
only at the colon behind it, so that tokens have to wait as long as one of them may start a key.
-/

namespace BreakpointProps.Yaml

/-- A place where a key may have started. -/
structure PossibleKey where
  /-- Does the indentation require a key here? -/
  isRequired : Bool
  /-- How many tokens come before the key. -/
  position : Nat
  mark : Mark
  deriving Inhabited

structure Tokens where
  source : Source
  /-- Tokens that have been read and not been taken. -/
  waiting : List Lexeme := []
  /-- The number of tokens that have been taken. -/
  taken : Nat := 0
  /-- The key that may have started at each level of brackets, the innermost first. -/
  keys : List (Option PossibleKey) := [none]
  /-- May a key start here? -/
  keyAllowed : Bool := true
  /-- The indentation of the innermost block, and those around it. -/
  indent : Int := -1
  outer : List Int := []
  deriving Inhabited

namespace Tokens

/-- Are there open brackets or braces? -/
def inFlow (tokens : Tokens) : Bool := tokens.keys.length > 1

/-- The place that has been reached. -/
def mark (tokens : Tokens) : Mark := tokens.source.mark

def add (tokens : Tokens) (lexeme : Lexeme) : Tokens :=
  { tokens with waiting := tokens.waiting ++ [lexeme] }

/-- Add a token of no length where the text has been read to. -/
def addHere (tokens : Tokens) (token : Token) : Tokens := tokens.add ⟨token, tokens.mark, tokens.mark⟩

/-- Put a token before those that come after so many others. -/
def insert (tokens : Tokens) (position : Nat) (lexeme : Lexeme) : Tokens :=
  let before := position - tokens.taken
  { tokens with waiting := tokens.waiting.take before ++ lexeme :: tokens.waiting.drop before }

def noColon {α : Type} (tokens : Tokens) (key : PossibleKey) : Except Flaw α :=
  tokens.source.fail .noColon .simpleKey key.mark

/-- Is it too late for the colon of a key? -/
def isStale (tokens : Tokens) (key : PossibleKey) : Bool :=
  key.mark.line < tokens.mark.line || key.mark.index + 1024 < tokens.mark.index

/-- Give up the keys whose colon can no longer come. -/
def dropStaleKeys (tokens : Tokens) : Except Flaw Tokens := do
  let keys ← (tokens.keys.reverse.mapM fun
    | none => .ok none
    | some key =>
      if !tokens.isStale key then .ok (some key)
      else if key.isRequired then tokens.noColon key
      else .ok none)
  return { tokens with keys := keys.reverse }

/-- Give up the key that may have started at this level. -/
def dropKey (tokens : Tokens) : Except Flaw Tokens :=
  match tokens.keys with
  | some key :: outer => if key.isRequired then tokens.noColon key else .ok { tokens with keys := none :: outer }
  | _ => .ok tokens

def noteKey (tokens : Tokens) : Except Flaw Tokens := do
  if !tokens.keyAllowed then return tokens
  let key : PossibleKey := {
    isRequired := !tokens.inFlow && tokens.indent == tokens.mark.column
    position := tokens.taken + tokens.waiting.length
    mark := tokens.mark }
  let tokens ← tokens.dropKey
  return { tokens with keys := some key :: tokens.keys.drop 1 }

/-- Start a block if the indentation grows. Its token goes before those that come after so many
others. -/
def openBlock (tokens : Tokens) (position : Option Nat) (token : Token) (mark : Mark) : Tokens :=
  if tokens.inFlow || (mark.column : Int) ≤ tokens.indent then tokens
  else
    let lexeme : Lexeme := ⟨token, mark, mark⟩
    let tokens := match position with
      | some position => tokens.insert position lexeme
      | none => tokens.add lexeme
    { tokens with outer := tokens.indent :: tokens.outer, indent := mark.column }

/-- End the blocks around which are indented further than by so much. -/
def closeBlocks (tokens : Tokens) (column : Int) : Tokens :=
  if tokens.inFlow then tokens
  else
    let closed := (tokens.indent :: tokens.outer).takeWhile (column < ·)
    let left := (tokens.indent :: tokens.outer).drop closed.length
    { tokens with
      waiting := tokens.waiting ++ closed.map fun _ => ⟨.blockEnd, tokens.mark, tokens.mark⟩
      indent := left.headD (-1)
      outer := left.drop 1 }

/-- Pass over blanks, comments and breaks. Tabs count as blanks where no key may start. -/
def skipGap : Nat → Tokens → Tokens
  | 0, tokens => tokens
  | fuel + 1, tokens =>
    let source := tokens.source
    let source := if source.mark.column == 0 && source.startsWith '\ufeff' then source.skip 1 else source
    let skipsTabs := tokens.inFlow || !tokens.keyAllowed
    let source := (source.skipWhile fun c => c == ' ' || (skipsTabs && c == '\t')).skipComment
    if source.nextIs isBreak then
      skipGap fuel
        { tokens with source := source.lineBreak.2, keyAllowed := tokens.keyAllowed || !tokens.inFlow }
    else { tokens with source }

/-- Read a token of so many characters. -/
def addMark (tokens : Tokens) (token : Token) (length : Nat) : Tokens :=
  let after := tokens.source.skip length
  { tokens.add ⟨token, tokens.mark, after.mark⟩ with source := after }

def readEnd (tokens : Tokens) : Except Flaw Tokens := do
  let mark := tokens.mark
  let mark := if mark.column == 0 then mark else { mark with line := mark.line + 1, column := 0 }
  let tokens := { tokens with source := { tokens.source with mark } }
  let tokens ← (tokens.closeBlocks (-1)).dropKey
  return { tokens with keyAllowed := false }.addHere .streamEnd

def readDirective (tokens : Tokens) : Except Flaw Tokens := do
  let tokens ← (tokens.closeBlocks (-1)).dropKey
  let (lexeme, source) ← tokens.source.directive
  return { tokens with source, keyAllowed := false }.add lexeme

/-- Read the mark at the start or the end of a document. -/
def readDocumentMark (tokens : Tokens) (token : Token) : Except Flaw Tokens := do
  let tokens ← (tokens.closeBlocks (-1)).dropKey
  return { tokens with keyAllowed := false }.addMark token 3

def readOpening (tokens : Tokens) (token : Token) : Except Flaw Tokens := do
  let tokens ← tokens.noteKey
  return { tokens with keys := none :: tokens.keys, keyAllowed := true }.addMark token 1

def readClosing (tokens : Tokens) (token : Token) : Except Flaw Tokens := do
  let tokens ← tokens.dropKey
  let keys := if tokens.inFlow then tokens.keys.drop 1 else tokens.keys
  return { tokens with keys, keyAllowed := false }.addMark token 1

/-- Read a comma between entries. -/
def readFlowEntry (tokens : Tokens) : Except Flaw Tokens := do
  let tokens ← tokens.dropKey
  return { tokens with keyAllowed := true }.addMark .flowEntry 1

/-- Fail because something is not allowed here. -/
def notAllowed {α : Type} (tokens : Tokens) (problem : Problem) : Except Flaw α :=
  .error (.problem problem tokens.mark none)

def readBlockEntry (tokens : Tokens) : Except Flaw Tokens := do
  if !tokens.inFlow && !tokens.keyAllowed then tokens.notAllowed .entryNotAllowed
  let tokens ← (tokens.openBlock none .blockSequenceStart tokens.mark).dropKey
  return { tokens with keyAllowed := true }.addMark .blockEntry 1

def readKey (tokens : Tokens) : Except Flaw Tokens := do
  if !tokens.inFlow && !tokens.keyAllowed then tokens.notAllowed .keyNotAllowed
  let tokens ← (tokens.openBlock none .blockMappingStart tokens.mark).dropKey
  return { tokens with keyAllowed := !tokens.inFlow }.addMark .key 1

/-- Read the colon before a value. What may have been a key is one then. -/
def readValue (tokens : Tokens) : Except Flaw Tokens := do
  match tokens.keys with
  | some key :: outer =>
    let tokens := tokens.insert key.position ⟨.key, key.mark, key.mark⟩
    let tokens := tokens.openBlock (some key.position) .blockMappingStart key.mark
    return { tokens with keys := none :: outer, keyAllowed := false }.addMark .value 1
  | _ =>
    if !tokens.inFlow && !tokens.keyAllowed then tokens.notAllowed .valueNotAllowed
    let tokens := tokens.openBlock none .blockMappingStart tokens.mark
    return { tokens with keyAllowed := !tokens.inFlow }.addMark .value 1

def readName (tokens : Tokens) (token : String → Token) (activity : Activity) : Except Flaw Tokens := do
  let tokens ← tokens.noteKey
  let (name, source) ← tokens.source.name activity
  return { tokens with source, keyAllowed := false }.add ⟨token name, tokens.mark, source.mark⟩

def readTag (tokens : Tokens) : Except Flaw Tokens := do
  let tokens ← tokens.noteKey
  let (token, source) ← tokens.source.tag tokens.inFlow
  return { tokens with source, keyAllowed := false }.add ⟨token, tokens.mark, source.mark⟩

def readBlock (tokens : Tokens) (isLiteral : Bool) : Except Flaw Tokens := do
  let tokens ← tokens.dropKey
  let (lexeme, source) ← tokens.source.block isLiteral tokens.indent
  return { tokens with source, keyAllowed := true }.add lexeme

def readQuoted (tokens : Tokens) (isSingle : Bool) : Except Flaw Tokens := do
  let tokens ← tokens.noteKey
  let (lexeme, source) ← tokens.source.quoted isSingle
  return { tokens with source, keyAllowed := false }.add lexeme

/-- Read a plain scalar. A key may start behind it on a new line. -/
def readPlain (tokens : Tokens) : Except Flaw Tokens := do
  let tokens ← tokens.noteKey
  let (lexeme, isBroken, source) ← tokens.source.plain tokens.inFlow (tokens.indent + 1).toNat
  return { tokens with source, keyAllowed := isBroken }.add lexeme

/-- Can a plain scalar not start with this character, unless what follows tells otherwise? -/
def isIndicator (c : Char) : Bool := "-?:,[]\x7b\x7d#&*!|>'\"%@\x60".toList.contains c

def startsPlain (tokens : Tokens) (c : Char) : Bool :=
  let next := tokens.source.peek? 1
  !(isBlank c || isBreak c || isIndicator c) || (c == '-' && !next.any isBlank)
    || (!tokens.inFlow && (c == '?' || c == ':') && !tokens.source.isGapAt 1)

def readFrom (tokens : Tokens) (c : Char) : Except Flaw Tokens :=
  let source := tokens.source
  let marksNode := tokens.inFlow || source.isGapAt 1
  if source.mark.column == 0 && c == '%' then tokens.readDirective
  else if source.isAtMark '-' then tokens.readDocumentMark .documentStart
  else if source.isAtMark '.' then tokens.readDocumentMark .documentEnd
  else if c == '[' then tokens.readOpening .flowSequenceStart
  else if c == '{' then tokens.readOpening .flowMappingStart
  else if c == ']' then tokens.readClosing .flowSequenceEnd
  else if c == '}' then tokens.readClosing .flowMappingEnd
  else if c == ',' then tokens.readFlowEntry
  else if c == '-' && source.isGapAt 1 then tokens.readBlockEntry
  else if c == '?' && marksNode then tokens.readKey
  else if c == ':' && marksNode then tokens.readValue
  else if c == '*' then tokens.readName .aliasName .aliasName
  else if c == '&' then tokens.readName .anchor .anchor
  else if c == '!' then tokens.readTag
  else if c == '|' && !tokens.inFlow then tokens.readBlock true
  else if c == '>' && !tokens.inFlow then tokens.readBlock false
  else if c == '\'' then tokens.readQuoted true
  else if c == '"' then tokens.readQuoted false
  else if tokens.startsPlain c then tokens.readPlain
  else source.fail .noToken .nextToken source.mark

/-- Read one more token, with the ends of the blocks before it. -/
def readNext (tokens : Tokens) : Except Flaw Tokens := do
  let tokens ← (skipGap (tokens.source.rest.length + 1) tokens).dropStaleKeys
  let tokens := tokens.closeBlocks tokens.mark.column
  match tokens.source.rest with
  | [] => tokens.readEnd
  | c :: _ => tokens.readFrom c

/-- May the first token that waits be part of a key? -/
def isOpen (tokens : Tokens) : Bool :=
  tokens.keys.any fun key => key.any fun key => key.position == tokens.taken

/-- Read tokens until the first of them is certain. -/
def settle : Nat → Tokens → Except Flaw Tokens
  | 0, tokens => .ok tokens
  | fuel + 1, tokens => do
    if tokens.waiting.isEmpty then settle fuel (← tokens.readNext)
    else
      let tokens ← tokens.dropStaleKeys
      if tokens.isOpen then settle fuel (← tokens.readNext) else return tokens

/-- The next token, and the tokens with it at their front. -/
def peek (tokens : Tokens) : Except Flaw (Lexeme × Tokens) := do
  let tokens ← settle (tokens.source.rest.length + 4) tokens
  return (tokens.waiting.headD ⟨.streamEnd, tokens.mark, tokens.mark⟩, tokens)

def drop (tokens : Tokens) : Tokens :=
  { tokens with waiting := tokens.waiting.drop 1, taken := tokens.taken + 1 }

def ofText (text : String) : Tokens := { source := .ofText text }

end Tokens

end BreakpointProps.Yaml
