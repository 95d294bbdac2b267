/-!
The shortest decimal that reads back as a given double, found in exact natural number arithmetic: of
the decimals with one digit, two digits and so on, the first that lies in the interval of reals
which round to the double, and of two such the nearer one.
-/

namespace BreakpointProps.Decimal

/-- A positive decimal `digits × 10 ^ exponent`. -/
structure Scientific where
  digits : Nat
  exponent : Int
  deriving DecidableEq, Repr, Inhabited

/-- A finite positive double `mantissa × 2 ^ exponent`. -/
structure Binary where
  mantissa : Nat
  exponent : Int
  deriving DecidableEq, Repr, Inhabited

namespace Binary

/-- The magnitude that the bits of a finite double stand for. -/
def ofBits (bits : Nat) : Binary :=
  let fraction := bits % Nat.pow 2 52
  let biased := bits / Nat.pow 2 52 % Nat.pow 2 11
  if biased == 0 then ⟨fraction, -1074⟩ else ⟨Nat.pow 2 52 + fraction, Int.ofNat biased - 1075⟩

/-- Is the gap below the double half of the gap above it? -/
def isAtPower (b : Binary) : Bool := b.mantissa == Nat.pow 2 52 && b.exponent != -1074

/-- Numerators over one denominator: the double, and the ends of the interval that rounds to it. -/
structure Neighbourhood where
  value : Nat
  low : Nat
  high : Nat
  denominator : Nat

/-- The double in quarters of its unit in the last place, over a common denominator. -/
def neighbourhood (b : Binary) : Neighbourhood :=
  let scale := Nat.pow 2 b.exponent.toNat
  let denominator := 4 * Nat.pow 2 (-b.exponent).toNat
  { value := 4 * b.mantissa * scale
    low := (4 * b.mantissa - (if b.isAtPower then 1 else 2)) * scale
    high := (4 * b.mantissa + 2) * scale
    denominator }

/-- The least `j` from `start` on with `denominator ≤ value * 10 ^ j`. -/
def leadingZeros (value denominator : Nat) : Nat → Nat → Nat
  | 0, j => j
  | fuel + 1, j =>
    if denominator ≤ value * Nat.pow 10 j then j else leadingZeros value denominator fuel (j + 1)

/-- The number of digits before the point; for values below one, less the zeros after it. -/
def pointPosition (n : Neighbourhood) : Int :=
  if n.denominator ≤ n.value then ((Nat.toDigits 10 (n.value / n.denominator)).length : Int)
  else 1 - (leadingZeros n.value n.denominator 400 1 : Int)

/-- Does the decimal `digits × 10 ^ exponent` round to the double? A tie goes to the even mantissa. -/
def holds (n : Neighbourhood) (even : Bool) (digits : Nat) (exponent : Int) : Bool :=
  let here := digits * Nat.pow 10 exponent.toNat * n.denominator
  let scale := Nat.pow 10 (-exponent).toNat
  if even then n.low * scale ≤ here && here ≤ n.high * scale
  else n.low * scale < here && here < n.high * scale

/-- The decimal of `count` digits that reads back, if there is one. -/
def candidate? (n : Neighbourhood) (even : Bool) (count : Nat) : Option Scientific :=
  let exponent := pointPosition n - count
  let numerator := n.value * Nat.pow 10 (-exponent).toNat
  let divisor := n.denominator * Nat.pow 10 exponent.toNat
  let below := numerator / divisor
  let lowHit := holds n even below exponent
  let highHit := holds n even (below + 1) exponent
  let nearer := if 2 * (numerator % divisor) ≤ divisor then below else below + 1
  if lowHit && highHit then some ⟨nearer, exponent⟩
  else if lowHit then some ⟨below, exponent⟩
  else if highHit then some ⟨below + 1, exponent⟩
  else none

/-- Drop the zeros at the end of the digits. -/
def trim : Nat → Scientific → Scientific
  | 0, s => s
  | fuel + 1, s =>
    if s.digits % 10 == 0 && s.digits != 0 then trim fuel ⟨s.digits / 10, s.exponent + 1⟩ else s

/-- The shortest decimal that reads back as the double. -/
def shortest (b : Binary) : Scientific :=
  let n := b.neighbourhood
  let even := b.mantissa % 2 == 0
  let found := (List.range 17).findSome? fun i => candidate? n even (i + 1)
  trim 20 (found.getD ⟨b.mantissa, b.exponent⟩)

end Binary

end BreakpointProps.Decimal
