/-!
Patterns over texts: which texts they match, and how they are written as regular expressions.
-/

namespace BreakpointProps.Text

inductive Pattern where
  /-- Exactly this text. -/
  | literal (text : List Char)
  /-- One of these characters. -/
  | oneOf (chars : List Char)
  /-- Any text without a line feed. -/
  | withinLine
  /-- One of these texts. -/
  | choice (options : List (List Char))
  | optional (p : Pattern)
  /-- One pattern and then another. -/
  | append (p q : Pattern)
  deriving DecidableEq, Repr, Inhabited

namespace Pattern

/-- The texts that a pattern matches as a whole. -/
def Matches : Pattern → List Char → Prop
  | literal text, s => s = text
  | oneOf chars, s => ∃ c ∈ chars, s = [c]
  | withinLine, s => '\n' ∉ s
  | choice options, s => s ∈ options
  | optional p, s => s = [] ∨ p.Matches s
  | append p q, s => ∃ a b, s = a ++ b ∧ p.Matches a ∧ q.Matches b

/-- A text matches at its end when some suffix of it matches as a whole. -/
def MatchesAtEnd (p : Pattern) (s : List Char) : Prop := ∃ before, ∃ a, s = before ++ a ∧ p.Matches a

/-- The characters that mean something else than themselves in a regular expression. -/
def isMeta (c : Char) : Bool := "\\.+*?()|[]\x7b\x7d^$#&-~".toList.contains c

/-- A text as a regular expression that matches it alone. -/
def escaped (text : List Char) : List Char :=
  text.flatMap fun c => if isMeta c then ['\\', c] else [c]

/-- Texts with a bar between each two. -/
def barred : List (List Char) → List Char
  | [] => []
  | [text] => text
  | text :: rest => text ++ '|' :: barred rest

/-- The pattern as a regular expression. -/
def source : Pattern → List Char
  | literal text => escaped text
  | oneOf chars => '[' :: chars ++ [']']
  | withinLine => ['.', '*']
  | choice options => '(' :: barred (options.map escaped) ++ [')']
  | optional p => "(?:".toList ++ p.source ++ ")?".toList
  | append p q => p.source ++ q.source

/-- The regular expression that finds the pattern at the end of a text. -/
def sourceAtEnd (p : Pattern) : String := String.ofList (p.source ++ ['$'])

end Pattern

end BreakpointProps.Text
