import BreakpointProps.Json.Basic
import BreakpointProps.Script.Printer.Writer

/-!
Source maps: the marks of a written script, as differences in variable-length digits.
-/

namespace BreakpointProps.Script.SourceMap

def digits : Array Char :=
  "ABCDEFGHIJKLMNOPQRSTUVWXYZabcdefghijklmnopqrstuvwxyz0123456789+/".toList.toArray

def digit (n : Nat) : Char := digits.getD n 'A'

/-- A number in groups of five bits, the lowest first; each group but the last has a sixth bit. -/
def groups (n : Nat) : List Char :=
  if h : n < 32 then [digit n] else digit (n % 32 + 32) :: groups (n / 32)
termination_by n
decreasing_by omega

/-- An integer, with its sign in the lowest bit. -/
def signed (n : Int) : List Char := groups (if n < 0 then 2 * n.natAbs + 1 else 2 * n.natAbs)

/-- A place of the text, and the place of the source that it stands for. -/
structure Token where
  line : Nat
  column : Nat
  sourceLine : Nat
  sourceColumn : Nat
  deriving DecidableEq, Repr, Inhabited

/-- Walk over the source: the line and the column of each wanted position. Both lists go up. -/
def places : List Char → (position line column : Nat) → List Nat → List (Nat × Nat × Nat)
  | _, _, _, _, [] => []
  | [], _, line, column, wanted => wanted.map fun p => (p, line, column)
  | c :: cs, position, line, column, wanted =>
    let (here, later) := wanted.span (· ≤ position)
    let found := here.map fun p => (p, line, column)
    if c == '\n' then found ++ places cs (position + c.utf8Size) (line + 1) 0 later
    else found ++ places cs (position + c.utf8Size) line (column + units16 c) later

def tokens (source : List Char) (marks : List Mark) : List Token :=
  let wanted := (marks.map Mark.position).mergeSort.eraseReps
  let found := (places source 1 0 0 wanted).toArray
  marks.filterMap fun mark =>
    let rec search (lo hi : Nat) : Nat → Option (Nat × Nat)
      | 0 => none
      | fuel + 1 =>
        if lo < hi then
          let middle := (lo + hi) / 2
          match found[middle]? with
          | some (p, place) =>
            if p == mark.position then some place
            else if p < mark.position then search (middle + 1) hi fuel
            else search lo middle fuel
          | none => none
        else none
    (search 0 found.size (found.size + 1)).map fun (line, column) =>
      ⟨mark.line, mark.column, line, column⟩

/-- The tokens behind another one as differences. A token that repeats the one before it is left
out. -/
def mappingsAfter : Token → List Token → List Char
  | _, [] => []
  | old, token :: rest =>
    let fields (column : Nat) : List Char :=
      signed ((token.column : Int) - column) ++ signed 0
        ++ signed ((token.sourceLine : Int) - old.sourceLine)
        ++ signed ((token.sourceColumn : Int) - old.sourceColumn)
    if token.line != old.line then
      List.replicate (token.line - old.line) ';' ++ fields 0 ++ mappingsAfter token rest
    else if token == old then mappingsAfter token rest
    else ',' :: fields old.column ++ mappingsAfter token rest

def mappings : List Token → List Char
  | [] => []
  | token :: rest =>
    List.replicate token.line ';' ++ signed token.column ++ signed 0 ++ signed token.sourceLine
      ++ signed token.sourceColumn ++ mappingsAfter token rest

/-- The source map of a written script as JSON. A source that nothing stands for is not named. -/
def text (path : String) (source : List Char) (marks : List Mark) : String :=
  let tokens := tokens source marks
  let sources := if tokens.isEmpty then "[]" else "[" ++ Json.quoted path ++ "]"
  "\x7b\"version\":3,\"sources\":" ++ sources ++ ",\"names\":[],\"mappings\":\""
    ++ String.ofList (mappings tokens) ++ "\"\x7d"

end BreakpointProps.Script.SourceMap
