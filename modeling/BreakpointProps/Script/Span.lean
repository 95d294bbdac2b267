/-!
Places in a source text. A position is a byte offset counted from one, so that zero is free to mean
"nowhere": what a tool adds to a program has no place in its source.
-/

namespace BreakpointProps.Script

/-- The bytes from `lo` up to, and without, `hi`. -/
structure Span where
  lo : Nat
  hi : Nat
  deriving DecidableEq, Repr, Inhabited

namespace Span

def nowhere : Span := ⟨0, 0⟩

def isNowhere (span : Span) : Bool := span.lo == 0 && span.hi == 0

/-- The span as a range, `lo..hi`. -/
def text (span : Span) : String := s!"{span.lo}..{span.hi}"

end Span

/-- How a comment is written. -/
inductive CommentStyle where
  /-- From two slashes to the end of the line. -/
  | line
  /-- Between a slash with a star and a star with a slash. -/
  | block
  deriving DecidableEq, Repr, Inhabited

/-- A comment with the text between its marks. -/
structure Comment where
  style : CommentStyle
  span : Span
  text : String
  deriving DecidableEq, Repr, Inhabited

/-- A character that ends a line. -/
def isLineEnd (c : Char) : Bool :=
  c == '\n' || c == '\r' || c == '\u2028' || c == '\u2029'

/-- Does a line end within the comment or right behind it? -/
def Comment.endsLine (comment : Comment) : Bool :=
  comment.style == .line || comment.text.toList.any isLineEnd

/-- Which token a comment belongs to: it leads the token that starts at a position, or trails the
one that ends there. -/
inductive Attachment where
  | leads
  | trails
  deriving DecidableEq, Repr, Inhabited

/-- A comment and the position of the token that it is attached to. -/
structure AttachedComment where
  attachment : Attachment
  position : Nat
  comment : Comment
  deriving Repr, Inhabited

end BreakpointProps.Script
