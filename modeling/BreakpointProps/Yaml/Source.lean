import BreakpointProps.Yaml.Flaw

/-!
A YAML text that is read from the left, with the place that has been reached.
-/

namespace BreakpointProps.Yaml

/-- Does a character end a line? -/
def isBreak (c : Char) : Bool :=
  c == '\n' || c == '\r' || c == '\x85' || c == '\u2028' || c == '\u2029'

/-- Is a character a blank within a line? -/
def isBlank (c : Char) : Bool := c == ' ' || c == '\t'

def isNameChar (c : Char) : Bool := c.isAlphanum || c == '_' || c == '-'

def hexValue? (c : Char) : Option Nat :=
  if c.isDigit then some (c.toNat - 48)
  else if 'a' ≤ c && c ≤ 'f' then some (c.toNat - 87)
  else if 'A' ≤ c && c ≤ 'F' then some (c.toNat - 55)
  else none

/-- Can a character stand in a text at all? -/
def isAllowed (c : Char) : Bool :=
  let n := c.toNat
  n == 0x9 || n == 0xA || n == 0xD || (0x20 ≤ n && n ≤ 0x7E) || n == 0x85 || (0xA0 ≤ n && n ≤ 0xFFFD)
    || 0x10000 ≤ n

/-- What is left of a text, and the place that has been reached. -/
structure Source where
  rest : List Char
  mark : Mark := {}
  deriving Inhabited

namespace Source

/-- The character that comes after so many others. -/
def peek? (source : Source) (n : Nat) : Option Char := source.rest[n]?

def startsWith (source : Source) (c : Char) : Bool := source.rest.head? == some c

/-- Does a condition hold of the next character? -/
def nextIs (source : Source) (p : Char → Bool) : Bool := source.rest.head?.any p

/-- Does a blank, a break or the end come after so many characters? -/
def isGapAt (source : Source) (n : Nat) : Bool :=
  match source.peek? n with
  | none => true
  | some c => isBlank c || isBreak c

/-- Does a break or the end come next? -/
def isAtLineEnd (source : Source) : Bool :=
  match source.rest with
  | [] => true
  | c :: _ => isBreak c

/-- Is this a line that starts with a character three times and a gap? -/
def isAtMark (source : Source) (c : Char) : Bool :=
  source.mark.column == 0 && source.rest.take 3 == [c, c, c] && source.isGapAt 3

/-- Is this a line that ends or starts a document? -/
def isAtDocumentMark (source : Source) : Bool := source.isAtMark '-' || source.isAtMark '.'

/-- Pass over characters of a line. -/
def skip (source : Source) (n : Nat) : Source :=
  let passed := (source.rest.take n).length
  { rest := source.rest.drop n
    mark := { source.mark with
      index := source.mark.index + passed
      column := source.mark.column + passed } }

/-- The characters of a line for which a condition holds, and what follows them. -/
def span (source : Source) (p : Char → Bool) : List Char × Source :=
  let taken := source.rest.takeWhile p
  (taken, source.skip taken.length)

/-- Pass over characters of a line for which a condition holds. -/
def skipWhile (source : Source) (p : Char → Bool) : Source := (source.span p).2

/-- Go to the next line after so many characters. -/
def nextLine (source : Source) (n : Nat) : Source :=
  { rest := source.rest.drop n
    mark := ⟨source.mark.index + n, source.mark.line + 1, 0⟩ }

/-- The line break that comes next, in one spelling for the usual ones, and what follows it. -/
def lineBreak (source : Source) : List Char × Source :=
  match source.rest with
  | '\r' :: '\n' :: _ => (['\n'], source.nextLine 2)
  | c :: _ =>
    if c == '\u2028' || c == '\u2029' then ([c], source.nextLine 1)
    else if isBreak c then (['\n'], source.nextLine 1)
    else ([], source)
  | [] => ([], source)

def skipComment (source : Source) : Source :=
  if source.startsWith '#' then source.skipWhile fun c => !isBreak c else source

def fail {α : Type} (source : Source) (problem : Problem) (activity : Activity) (start : Mark) :
    Except Flaw α :=
  .error (.problem problem source.mark (some (activity, start)))

/-- The source of a text, a mark of its encoding at the start being no part of it. -/
def ofText (text : String) : Source :=
  match text.toList with
  | '\ufeff' :: rest => ⟨rest, {}⟩
  | chars => ⟨chars, {}⟩

end Source

/-- The number of bytes before the first character that no text may hold. -/
def badOffset? (offset : Nat) : List Char → Option Nat
  | [] => none
  | c :: rest => if isAllowed c then badOffset? (offset + c.utf8Size) rest else some offset

end BreakpointProps.Yaml
