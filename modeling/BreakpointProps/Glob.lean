import BreakpointProps.Path

/-!
Patterns for paths. A star stands for any text, two stars that fill the space between slashes for any
directories, a question mark for a character, and brackets for one character of a set.
-/

namespace BreakpointProps

/-- A part of a pattern. -/
inductive Glob.Token where
  | char (c : Char)
  | anyChar
  /-- Any text, slashes included. -/
  | anyText
  /-- Any directories, or all that is left of the path. -/
  | anyDirectories
  /-- A character in one of the ranges. -/
  | within (ranges : List (Char × Char))
  /-- A character in none of the ranges. -/
  | without (ranges : List (Char × Char))
  deriving DecidableEq, Repr, Inhabited

/-- A pattern for paths. -/
structure Glob where
  tokens : List Glob.Token
  deriving DecidableEq, Repr, Inhabited

namespace Glob

/-- What can be wrong with a pattern. -/
inductive Cause where
  | stars
  | directories
  | range
  deriving DecidableEq, Repr, Inhabited

/-- What is wrong with a pattern, and before how many characters. -/
structure Flaw where
  position : Nat
  cause : Cause
  deriving DecidableEq, Repr, Inhabited

def Flaw.message (flaw : Flaw) : String :=
  "Pattern syntax error near position " ++ toString flaw.position ++ ": " ++
    match flaw.cause with
    | .stars => "wildcards are either regular \x60*\x60 or recursive \x60**\x60"
    | .directories => "recursive wildcards must form a single path component"
    | .range => "invalid range pattern"

/-- The ranges between brackets. A dash between two characters makes a range of them. -/
def ranges : List Char → List (Char × Char)
  | low :: '-' :: high :: rest => (low, high) :: ranges rest
  | c :: rest => (c, c) :: ranges rest
  | [] => []

/-- The set that opens a text behind its bracket, and how many characters it takes with the closing
bracket. The first character of a set never closes it. -/
def set? : List Char → Option (Token × Nat)
  | '!' :: first :: rest =>
    (rest.findIdx? (· == ']')).map fun n => (.without (ranges (first :: rest.take n)), n + 3)
  | '!' :: [] => none
  | first :: rest =>
    (rest.findIdx? (· == ']')).map fun n => (.within (ranges (first :: rest.take n)), n + 2)
  | [] => none

/-- The tokens of a text that starts at a position of a pattern, behind a character if there is one. -/
def tokensFrom (position : Nat) (before : Option Char) : List Char → Except Flaw (List Token)
  | [] => .ok []
  | '?' :: rest => do return .anyChar :: (← tokensFrom (position + 1) (some '?') rest)
  | '*' :: '*' :: '*' :: _ => .error ⟨position + 2, .stars⟩
  | '*' :: '*' :: rest =>
    if before.any (· != '/') then .error ⟨position - 1, .directories⟩
    else
      match rest with
      | [] => .ok [.anyDirectories]
      | '/' :: rest => do return .anyDirectories :: (← tokensFrom (position + 3) (some '/') rest)
      | _ => .error ⟨position + 2, .directories⟩
  | '*' :: rest => do return .anyText :: (← tokensFrom (position + 1) (some '*') rest)
  | '[' :: rest =>
    match set? rest with
    | none => .error ⟨position, .range⟩
    | some (token, taken) => do
      return token :: (← tokensFrom (position + 1 + taken) (some ']') (rest.drop taken))
  | c :: rest => do return .char c :: (← tokensFrom (position + 1) (some c) rest)
  termination_by text => text.length

def ofText (text : String) : Except Flaw Glob := do
  return ⟨← tokensFrom 0 none text.toList⟩

def isWithin (ranges : List (Char × Char)) (c : Char) : Bool :=
  ranges.any fun (low, high) => low ≤ c && c ≤ high

/-- Does a condition hold of a text or of what is left after some characters of it? -/
def anySuffix (holds : List Char → Bool) : List Char → Bool
  | [] => holds []
  | c :: rest => holds (c :: rest) || anySuffix holds rest

/-- Does a condition hold of what is left after a slash of a text, or of nothing? -/
def anyBelow (holds : List Char → Bool) : List Char → Bool
  | [] => holds []
  | c :: rest => (c == '/' && holds rest) || anyBelow holds rest

/-- Do tokens stand for all of a text? -/
def match? : List Token → List Char → Bool
  | [], text => text.isEmpty
  | .anyText :: tokens, text => anySuffix (match? tokens) text
  | .anyDirectories :: tokens, text => match? tokens text || anyBelow (match? tokens) text
  | _ :: _, [] => false
  | .char wanted :: tokens, c :: text => c == wanted && match? tokens text
  | .anyChar :: tokens, _ :: text => match? tokens text
  | .within ranges :: tokens, c :: text => isWithin ranges c && match? tokens text
  | .without ranges :: tokens, c :: text => !isWithin ranges c && match? tokens text

def accepts (glob : Glob) (text : String) : Bool := match? glob.tokens text.toList

/-- The text that a pattern stands for if it stands for one only. -/
def literal? (glob : Glob) : Option String :=
  let char? : Token → Option Char
    | .char c => some c
    | _ => none
  (glob.tokens.mapM char?).map String.ofList

/-- Does the pattern stand for any number of directories? -/
def isDirectories (glob : Glob) : Bool := glob.tokens.contains .anyDirectories

def startsWithDot (glob : Glob) : Bool := glob.tokens.head? == some (.char '.')

end Glob

end BreakpointProps
