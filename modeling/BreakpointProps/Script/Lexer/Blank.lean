import BreakpointProps.Script.Lexer.State

/-!
Blanks, line ends and comments between tokens.
-/

namespace BreakpointProps.Script

/-- A blank that ends no line. The byte order mark is one as well. -/
def isBlank (c : Char) : Bool := (Text.isWhiteSpace c && !isLineEnd c) || c == '\ufeff'

namespace Lex

/-- Keep a comment: for the next token, or for the one before. -/
def keepComment (comment : Comment) (leadsNext : Bool) : Lex Unit := modify fun s =>
  if leadsNext then { s with pending := comment :: s.pending }
  else { s with attached := ⟨.trails, s.lastEnd, comment⟩ :: s.attached }

/-- Pass a comment that runs to the end of the line, `skipped` characters of which are its mark. -/
def lineComment (skipped : Nat) : Lex Unit := do
  let s ← get
  skipMany skipped
  let leadsNext := s.lineBreak || (s.last.map Token.takesTrailingLineComment == some false)
  let (_, text) ← withText (skipWhile fun c => !isLineEnd c)
  let after ← get
  keepComment ⟨.line, ⟨s.position, after.position⟩, text⟩ leadsNext

/-- Pass blanks and line ends. -/
def blanks : Lex Unit := do
  let s ← get
  skipWhile fun c => isBlank c || isLineEnd c
  let after ← get
  if (textBetween s.rest s.position after.position).any isLineEnd then
    modify fun s => { s with lineBreak := true }

/-- What is left after the mark that ends a block comment, and the position there. -/
def blockCommentEnd? : List Char → Nat → Option (List Char × Nat)
  | '*' :: '/' :: cs, position => some (cs, position + 2)
  | c :: cs, position => blockCommentEnd? cs (position + c.utf8Size)
  | [], _ => none

/-- Pass a comment between marks. A semicolon right after it makes it trail the token before. -/
def blockComment : Lex Unit := do
  let start ← get
  skipMany 2
  let inner ← get
  match blockCommentEnd? inner.rest inner.position with
  | none =>
    skipWhile fun _ => true
    note .unterminatedBlockComment
  | some (rest, position) =>
    let text := textBetween inner.rest inner.position (position - 2)
    modify fun s => { s with rest, position }
    let brokenBefore := start.lineBreak
    if text.any isLineEnd then modify fun s => { s with lineBreak := true }
    blanks
    let leadsNext :=
      (brokenBefore || (start.last.map Token.takesTrailingComment == some false))
        && !(!brokenBefore && (← peek) == some ';')
    keepComment ⟨.block, ⟨start.position, position⟩, String.ofList text⟩ leadsNext

/-- Pass everything between two tokens. -/
def skipSpaceSteps : Nat → Lex Unit
  | 0 => pure ()
  | n + 1 => do
    blanks
    if (← peek) == some '/' then
      match ← peekSecond with
      | some '/' =>
        lineComment 2
        skipSpaceSteps n
      | some '*' =>
        blockComment
        skipSpaceSteps n
      | _ => pure ()

/-- Pass everything between two tokens. -/
def skipSpace : Lex Unit := do skipSpaceSteps (← get).size

end Lex

end BreakpointProps.Script
