import BreakpointProps.Decimal.Layout

/-!
The values of number texts: decimal numbers with a fraction and an exponent, and whole numbers in
another radix.
-/

namespace BreakpointProps.Decimal

def digitValue? (radix : Nat) (c : Char) : Option Nat :=
  let value? : Option Nat :=
    if c.isDigit then some (c.toNat - 48)
    else if 'a' ≤ c && c ≤ 'f' then some (c.toNat - 87)
    else if 'A' ≤ c && c ≤ 'F' then some (c.toNat - 55)
    else none
  value?.filter (· < radix)

/-- The number that digits spell in a radix, passing over everything else. -/
def natOfDigits (radix : Nat) (digits : List Char) : Nat :=
  digits.foldl (fun n c => match digitValue? radix c with
    | some d => n * radix + d
    | none => n) 0

/-- A decimal number text taken apart: its digits as one whole number and the power of ten. -/
def scientificOfText (text : List Char) : Nat × Int :=
  let mantissa := text.takeWhile fun c => c != 'e' && c != 'E'
  let exponentPart := (text.dropWhile fun c => c != 'e' && c != 'E').drop 1
  let fraction := ((mantissa.dropWhile (· != '.')).drop 1).filter Char.isDigit
  let digits := mantissa.filter Char.isDigit
  let exponent : Int :=
    if exponentPart.head? == some '-' then -(natOfDigits 10 exponentPart : Int)
    else natOfDigits 10 exponentPart
  (natOfDigits 10 digits, exponent - fraction.length)

/-- The double nearest to `digits × 10 ^ exponent`. Powers far outside the range of doubles are
settled before any of them is computed. -/
def nearestDouble (digits : Nat) (exponent : Int) : Float :=
  let size : Int := (Nat.toDigits 10 digits).length
  if digits == 0 then 0.0
  else if 320 < size + exponent then 1.0 / 0.0
  else if size + exponent < -400 then 0.0
  else if exponent < 0 then Float.ofScientific digits true (-exponent).toNat
  else Float.ofScientific digits false exponent.toNat

/-- The double that a decimal text without a sign stands for. -/
def doubleOfText (text : List Char) : Float :=
  let (digits, exponent) := scientificOfText text
  nearestDouble digits exponent

/-- The value of a number literal of a script, which may have a radix mark and separators. -/
def doubleOfLiteral (raw : String) : Float :=
  match raw.toList with
  | '0' :: c :: rest =>
    if c == 'x' || c == 'X' then nearestDouble (natOfDigits 16 rest) 0
    else if c == 'o' || c == 'O' then nearestDouble (natOfDigits 8 rest) 0
    else if c == 'b' || c == 'B' then nearestDouble (natOfDigits 2 rest) 0
    else doubleOfText raw.toList
  | text => doubleOfText text

/-- The value of a number literal, written plainly. -/
def displayOfLiteral (raw : String) : String := Layout.plain.text (doubleOfLiteral raw)

end BreakpointProps.Decimal
