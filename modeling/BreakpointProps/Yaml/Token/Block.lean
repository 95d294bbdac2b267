import BreakpointProps.Yaml.Token.Directive

/-!
Scalars that fill an indented block. Their lines are kept, or those that do not start with a blank are
folded into one.
-/

namespace BreakpointProps.Yaml

/-- What becomes of the breaks at the end of a block. -/
inductive Chomping where
  /-- The last line ends with one break. -/
  | clip
  | strip
  | keep
  deriving DecidableEq, Repr, Inhabited

/-- The first line of a block. -/
structure BlockHeader where
  chomping : Chomping := .clip
  /-- How much further than its surroundings the block is indented. -/
  increment : Option Nat := none
  deriving Inhabited

/-- The text of a block as far as it has been read. -/
structure BlockText where
  text : List Char := []
  /-- The break behind the last line. -/
  lineEnd : List Char := []
  /-- The empty lines behind that. -/
  empty : List Char := []
  /-- Does the last line start with a blank? -/
  startsBlank : Bool := false

namespace Source

/-- The mark of a chomping. -/
def chomping? (source : Source) : Option Chomping :=
  match source.rest with
  | '+' :: _ => some .keep
  | '-' :: _ => some .strip
  | _ => none

/-- The digit that tells how much a block is indented. -/
def increment? (source : Source) (start : Mark) : Except Flaw (Option Nat) :=
  match source.rest with
  | '0' :: _ => source.fail .zeroIndent .blockScalar start
  | c :: _ => .ok (if c.isDigit then some (c.toNat - 48) else none)
  | [] => .ok none

/-- What the first line says about a block, in either order. -/
def blockHeader (source : Source) (start : Mark) : Except Flaw (BlockHeader × Source) := do
  match source.chomping? with
  | some chomping =>
    let source := source.skip 1
    match ← source.increment? start with
    | some n => return (⟨chomping, some n⟩, source.skip 1)
    | none => return (⟨chomping, none⟩, source)
  | none =>
    match ← source.increment? start with
    | some n =>
      let source := source.skip 1
      match source.chomping? with
      | some chomping => return (⟨chomping, some n⟩, source.skip 1)
      | none => return (⟨.clip, some n⟩, source)
    | none => return ({}, source)

/-- The empty lines that come next with the blanks before the line behind them, the greatest number of
blanks on one of these lines, and where the last empty line ends. -/
def emptyLines (indent : Option Nat) (start : Mark) :
    Nat → Source → Except Flaw (List Char × Nat × Mark × Source)
  | 0, source => .ok ([], 0, source.mark, source)
  | fuel + 1, source => do
    let room (column : Nat) : Bool := indent.all fun n => column < n
    let width := (source.rest.takeWhile (· == ' ')).length
    let limit := match indent with
      | some n => min width (n - source.mark.column)
      | none => width
    let after := source.skip limit
    if room after.mark.column && after.startsWith '\t' then after.fail .tabInIndent .blockScalar start
    else if after.nextIs isBreak then
      let (text, next) := after.lineBreak
      let (texts, widest, stop, rest) ← emptyLines indent start fuel next
      return (text ++ texts, max after.mark.column widest, stop, rest)
    else return ([], after.mark.column, source.mark, after)

/-- Add a line to the text of a block. A break between lines that do not start with a blank is folded
into a blank, or into nothing if empty lines follow it. -/
def addLine (isLiteral : Bool) (block : BlockText) (line : List Char) (lineEnd empty : List Char) :
    BlockText :=
  let startsBlank := line.head?.any isBlank
  let isFolded := !isLiteral && block.lineEnd == ['\n'] && !block.startsBlank && !startsBlank
  let joint :=
    if isFolded then if block.empty.isEmpty then [' '] else block.empty
    else block.lineEnd ++ block.empty
  ⟨block.text ++ joint ++ line, lineEnd, empty, startsBlank⟩

def blockLines (isLiteral : Bool) (indent : Nat) (start : Mark) :
    Nat → BlockText → Mark → Source → Except Flaw (BlockText × Mark × Source)
  | 0, block, stop, source => .ok (block, stop, source)
  | fuel + 1, block, stop, source => do
    if source.mark.column != indent || source.rest.isEmpty then return (block, stop, source)
    let (line, after) := source.span fun c => !isBreak c
    let (lineEnd, after) := after.lineBreak
    let (empty, _, stop, after) ← emptyLines (some indent) start (after.rest.length + 1) after
    blockLines isLiteral indent start fuel (addLine isLiteral block line lineEnd empty) stop after

/-- The text of a block without the breaks at its end that do not count. -/
def chomped (chomping : Chomping) (block : BlockText) : List Char :=
  match chomping with
  | .strip => block.text
  | .clip => block.text ++ block.lineEnd
  | .keep => block.text ++ block.lineEnd ++ block.empty

/-- The scalar in a block. What surrounds it is indented by so much, or not at all if that is
negative. -/
def block (source : Source) (isLiteral : Bool) (parent : Int) : Except Flaw (Lexeme × Source) := do
  let start := source.mark
  let (header, after) ← (source.skip 1).blockHeader start
  let after ← after.restOfLine .blockScalar start
  let outer := parent.toNat
  let given := header.increment.map fun n => outer + n
  let (empty, widest, stop, after) ← emptyLines given start (after.rest.length + 1) after
  let indent := given.getD (max widest (max (parent + 1).toNat 1))
  let (block, stop, after) ←
    blockLines isLiteral indent start (after.rest.length + 1) { empty } stop after
  let style := if isLiteral then ScalarStyle.literal else .folded
  return (⟨.scalar (String.ofList (chomped header.chomping block)) style, start, stop⟩, after)

end Source

end BreakpointProps.Yaml
