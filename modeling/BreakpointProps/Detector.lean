import BreakpointProps.Breakpoint
import BreakpointProps.Text.CharClass

/-!
A quick test whether a text can hold an attribute of a breakpoint at all: the name of a breakpoint
that starts a word, then white space and comments in any mix, then an equals sign. A hit in a string
or a comment is no harm, since the tree of the script decides in the end.
-/

namespace BreakpointProps.Detector

/-- What may be read at a place between a name and the equals sign, each on some reading of what came
before: a comment may be taken to end at any of the marks that can end it. -/
structure Gap where
  /-- A piece ended here. -/
  outside : Bool := false
  /-- A slash started a comment. -/
  slash : Bool := false
  /-- In a block comment. -/
  block : Bool := false
  /-- Behind a star in a block comment. -/
  star : Bool := false
  /-- In a comment to the end of the line. -/
  line : Bool := false
  deriving DecidableEq, Repr, Inhabited

namespace Gap

/-- Directly behind the name. -/
def start : Gap := { outside := true }

/-- Behind one more character. -/
def step (gap : Gap) (c : Char) : Gap where
  outside := (gap.outside && Text.isWhiteSpace c) || (gap.star && c == '/') || (gap.line && c == '\n')
  slash := gap.outside && c == '/'
  block := (gap.slash && c == '*') || gap.block
  star := gap.block && c == '*'
  line := (gap.slash && c == '/') || (gap.line && c != '\n')

/-- Is there no reading left? -/
def isDead (gap : Gap) : Bool := !(gap.outside || gap.slash || gap.block || gap.line)

/-- Does the text go on with white space and comments up to an equals sign? -/
def reachesEquals (gap : Gap) : List Char → Bool
  | [] => false
  | c :: cs => (gap.outside && c == '=') ||
    (let next := gap.step c
     !next.isDead && next.reachesEquals cs)

end Gap

/-- May a word start behind this character? -/
def isBoundary (words : Text.WordClass) (c : Char) : Bool := !(words.contains c || c == '$' || c == '-')

/-- Does the text start with an attribute of this breakpoint, up to the equals sign? -/
def startsWith (b : Breakpoint) (text : List Char) : Bool :=
  b.name.toList.isPrefixOf text && Gap.start.reachesEquals (text.drop b.name.length)

/-- Does an attribute of a breakpoint start in the text? `fresh` says whether a word may start at its
first character. -/
def search (words : Text.WordClass) (fresh : Bool) : List Char → Bool
  | [] => false
  | c :: cs =>
    (fresh && Breakpoint.all.any fun b => startsWith b (c :: cs)) || search words (isBoundary words c) cs

/-- Can the text hold an attribute of a breakpoint? -/
def hasResponsivePropsBy (words : Text.WordClass) (text : String) : Bool := search words true text.toList

def hasResponsiveProps (text : String) : Bool := hasResponsivePropsBy Text.words text

end BreakpointProps.Detector
