import BreakpointProps.Yaml.Source
import BreakpointProps.Yaml.Token

/-!
Plain and quoted scalars. Between two words a single line break is a blank, and of several the first
does not count.
-/

namespace BreakpointProps.Yaml

/-- What stands between two words of a scalar. -/
structure Gap where
  /-- The blanks before the first break. -/
  blanks : List Char := []
  first : List Char := []
  later : List Char := []
  /-- Does the line end? -/
  isBroken : Bool := false
  deriving Inhabited

namespace Gap

/-- What a gap counts for. -/
def text (gap : Gap) : List Char :=
  if !gap.isBroken then gap.blanks
  else if gap.first == ['\n'] then if gap.later.isEmpty then [' '] else gap.later
  else gap.first ++ gap.later

def addBreak (gap : Gap) (text : List Char) : Gap :=
  if gap.isBroken then { gap with later := gap.later ++ text }
  else { gap with blanks := [], first := text, isBroken := true }

/-- Add a blank. It counts only before the first break. -/
def addBlank (gap : Gap) (c : Char) : Gap :=
  if gap.isBroken then gap else { gap with blanks := gap.blanks ++ [c] }

end Gap

namespace Source

/-- All blanks and breaks that come next. Tabs must not stand before an indentation. -/
def gap (indent : Nat) (start : Mark) : Nat → Gap → Source → Except Flaw (Gap × Source)
  | 0, found, source => .ok (found, source)
  | fuel + 1, found, source =>
    match source.rest with
    | [] => .ok (found, source)
    | c :: _ =>
      if isBlank c then
        if found.isBroken && source.mark.column < indent && c == '\t' then
          source.fail .tabBeforeIndent .plainScalar start
        else gap indent start fuel (found.addBlank c) (source.skip 1)
      else if isBreak c then
        let (text, after) := source.lineBreak
        gap indent start fuel (found.addBreak text) after
      else .ok (found, source)

/-- Does a character end brackets or braces, start them, or stand between their entries? -/
def isFlowMark (c : Char) : Bool := ",[]\x7b\x7d".toList.contains c

def plainWord (inFlow : Bool) (start : Mark) : Nat → Source → Except Flaw (List Char × Source)
  | 0, source => .ok ([], source)
  | fuel + 1, source =>
    match source.rest with
    | [] => .ok ([], source)
    | c :: rest =>
      if isBlank c || isBreak c then .ok ([], source)
      else if inFlow && c == ':' && rest.head?.any (fun d => d == '?' || isFlowMark d) then
        source.fail .unexpectedColon .plainScalar start
      else if c == ':' && source.isGapAt 1 then .ok ([], source)
      else if inFlow && isFlowMark c then .ok ([], source)
      else do
        let (word, after) ← plainWord inFlow start fuel (source.skip 1)
        return (c :: word, after)

/-- A plain scalar as far as it has been read. -/
structure PlainScalar where
  text : List Char := []
  /-- Where the last word ends. -/
  stop : Mark
  /-- What follows the last word. -/
  gap : Gap := {}

/-- The words of a plain scalar. It ends before a document, at a comment, at a mark, and where a line
is not indented enough. -/
def plainWords (inFlow : Bool) (indent : Nat) (start : Mark) :
    Nat → PlainScalar → Source → Except Flaw (PlainScalar × Source)
  | 0, scalar, source => .ok (scalar, source)
  | fuel + 1, scalar, source => do
    if source.isAtDocumentMark || source.startsWith '#' then return (scalar, source)
    let (word, after) ← plainWord inFlow start source.rest.length source
    let scalar :=
      if word.isEmpty then scalar else ⟨scalar.text ++ scalar.gap.text ++ word, after.mark, {}⟩
    if !after.nextIs (fun c => isBlank c || isBreak c) then return (scalar, after)
    let (found, after) ← gap indent start after.rest.length scalar.gap after
    let scalar := { scalar with gap := found }
    if !inFlow && after.mark.column < indent then return (scalar, after)
    plainWords inFlow indent start fuel scalar after

/-- A plain scalar, and whether a line ends behind it. -/
def plain (source : Source) (inFlow : Bool) (indent : Nat) : Except Flaw (Lexeme × Bool × Source) := do
  let start := source.mark
  let (scalar, after) ← plainWords inFlow indent start (source.rest.length + 1) ⟨[], start, {}⟩ source
  return (⟨.scalar (String.ofList scalar.text) .plain, start, scalar.stop⟩, scalar.gap.isBroken, after)

/-- What an escape stands for that is one character long. -/
def escape? : Char → Option Char
  | '0' => some '\x00'
  | 'a' => some '\x07'
  | 'b' => some '\x08'
  | 't' => some '\t'
  | '\t' => some '\t'
  | 'n' => some '\n'
  | 'v' => some '\x0b'
  | 'f' => some '\x0c'
  | 'r' => some '\r'
  | 'e' => some '\x1b'
  | ' ' => some ' '
  | '"' => some '"'
  | '/' => some '/'
  | '\\' => some '\\'
  | 'N' => some '\x85'
  | '_' => some '\xa0'
  | 'L' => some '\u2028'
  | 'P' => some '\u2029'
  | _ => none

/-- The number of digits of an escape that gives the code of a character. -/
def escapeWidth? : Char → Option Nat
  | 'x' => some 2
  | 'u' => some 4
  | 'U' => some 8
  | _ => none

def hexNumber? (digits : List Char) : Option Nat :=
  digits.foldlM (fun n c => (hexValue? c).map (16 * n + ·)) 0

/-- The character that an escape behind a backslash stands for. -/
def escaped (source : Source) (start : Mark) : Except Flaw (Char × Source) :=
  match source.peek? 1 with
  | none => source.fail .unknownEscape .quotedParts start
  | some c =>
    match escape? c, escapeWidth? c with
    | some meant, _ => .ok (meant, source.skip 2)
    | none, none => source.fail .unknownEscape .quotedParts start
    | none, some width =>
      let after := source.skip 2
      let digits := after.rest.take width
      match if digits.length == width then hexNumber? digits else none with
      | none => after.fail .noHexDigit .quotedParts start
      | some n =>
        if n.isValidChar then .ok (Char.ofNat n, after.skip width)
        else after.fail .badCode .quotedParts start

/-- A word of a scalar in apostrophes. Two apostrophes stand for one. -/
def singleWord : Nat → Source → List Char × Source
  | 0, source => ([], source)
  | fuel + 1, source =>
    match source.rest with
    | [] => ([], source)
    | '\'' :: '\'' :: _ =>
      let (word, after) := singleWord fuel (source.skip 2)
      ('\'' :: word, after)
    | c :: _ =>
      if isBlank c || isBreak c || c == '\'' then ([], source)
      else
        let (word, after) := singleWord fuel (source.skip 1)
        (c :: word, after)

/-- A word of a scalar in quotes, and whether a backslash hides the break behind it. -/
def doubleWord (start : Mark) : Nat → Source → Except Flaw (List Char × Bool × Source)
  | 0, source => .ok ([], false, source)
  | fuel + 1, source =>
    match source.rest with
    | [] => .ok ([], false, source)
    | '\\' :: next =>
      if next.head?.any isBreak then .ok ([], true, (source.skip 1).lineBreak.2)
      else do
        let (c, after) ← source.escaped start
        let (word, isHidden, after) ← doubleWord start fuel after
        return (c :: word, isHidden, after)
    | c :: _ =>
      if isBlank c || isBreak c || c == '"' then .ok ([], false, source)
      else do
        let (word, isHidden, after) ← doubleWord start fuel (source.skip 1)
        return (c :: word, isHidden, after)

def quotedWords (isSingle : Bool) (start : Mark) :
    Nat → List Char → Source → Except Flaw (List Char × Source)
  | 0, text, source => .ok (text, source)
  | fuel + 1, text, source => do
    if source.isAtDocumentMark then source.fail .documentMark .quotedScalar start
    if source.rest.isEmpty then source.fail .endOfText .quotedScalar start
    let (word, isHidden, after) ←
      if isSingle then
        let (word, after) := singleWord source.rest.length source
        pure (word, false, after)
      else doubleWord start source.rest.length source
    if after.startsWith (if isSingle then '\'' else '"') then return (text ++ word, after.skip 1)
    let (found, after) ← gap 0 start after.rest.length { isBroken := isHidden } after
    quotedWords isSingle start fuel (text ++ word ++ found.text) after

def quoted (source : Source) (isSingle : Bool) : Except Flaw (Lexeme × Source) := do
  let start := source.mark
  let (text, after) ← quotedWords isSingle start (source.rest.length + 1) [] (source.skip 1)
  let style := if isSingle then ScalarStyle.singleQuoted else .doubleQuoted
  return (⟨.scalar (String.ofList text) style, start, after.mark⟩, after)

end Source

end BreakpointProps.Yaml
