/-!
Sets of code points as lists of closed ranges, written down as in the tables of the Unicode
standard: hexadecimal numbers, `first-last` for a range, blanks in between.
-/

namespace BreakpointProps.Text.Ranges

/-- The value of a hexadecimal digit; other characters count as zero. -/
def hexDigit (c : Char) : Nat :=
  if c.isDigit then c.toNat - 48
  else if 'A' ≤ c && c ≤ 'F' then c.toNat - 55
  else if 'a' ≤ c && c ≤ 'f' then c.toNat - 87
  else 0

/-- The ranges that the characters of a table list, in order, with the range that is being read: its
first bound, if the dash was passed, and the number under the eye, if it has begun. -/
def ofChars : List Char → Option Nat → Option Nat → List (Nat × Nat)
  | [], first, number => match number with
    | none => []
    | some n => [(first.getD n, n)]
  | c :: cs, first, number =>
    if c.isWhitespace then
      match number with
      | none => ofChars cs first none
      | some n => (first.getD n, n) :: ofChars cs none none
    else if c == '-' then ofChars cs number none
    else ofChars cs first (some (number.getD 0 * 16 + hexDigit c))

def ofText (text : String) : List (Nat × Nat) := ofChars text.toList none none

/-- Does a range of the list hold the code point? -/
def contains (ranges : List (Nat × Nat)) (n : Nat) : Bool :=
  ranges.any fun range => range.1 ≤ n && n ≤ range.2

theorem contains_ofText {text : String} {chars : List Char} (htext : text = String.ofList chars) (n : Nat) :
    contains (ofText text) n = contains (ofChars chars none none) n := by
  rw [ofText, htext, String.toList_ofList]

end BreakpointProps.Text.Ranges
