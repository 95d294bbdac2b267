/-!
Counts as they are written on a command line: digits, with a plus sign before them or not. A count has
to fit into 64 bits.
-/

namespace BreakpointProps.CommandLine

/-- Why a text is no count. -/
inductive CountFlaw where
  | empty
  | badDigit
  | tooLarge
  deriving DecidableEq, Repr, Inhabited

def CountFlaw.message : CountFlaw → String
  | empty => "cannot parse integer from empty string"
  | badDigit => "invalid digit found in string"
  | tooLarge => "number too large to fit in target type"

/-- The first number that is no count. -/
def countBound : Nat := Nat.pow 2 64

/-- Go on with a count, digit by digit. The first flaw counts. -/
def countDigits (count : Nat) : List Char → Except CountFlaw Nat
  | [] => .ok count
  | c :: cs =>
    if !c.isDigit then .error .badDigit
    else
      let next := 10 * count + (c.toNat - '0'.toNat)
      if next ≥ countBound then .error .tooLarge else countDigits next cs

/-- The count that a text stands for. A sign alone is no count. -/
def countOf (text : String) : Except CountFlaw Nat :=
  match text.toList with
  | [] => .error .empty
  | '+' :: c :: cs => countDigits 0 (c :: cs)
  | cs => countDigits 0 cs

end BreakpointProps.CommandLine
