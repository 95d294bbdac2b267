import BreakpointProps.Decimal.Layout

/-!
The numbers of JSON texts: whole numbers that fit into 64 bits, with or without a sign, and doubles
for all others.
-/

namespace BreakpointProps.Json

inductive Number where
  | int (n : Int)
  | double (x : Float)
  deriving Inhabited

namespace Number

/-- A whole number as a double, rounded to the nearest. -/
def doubleOfInt (n : Int) : Float :=
  if n < 0 then -n.natAbs.toUInt64.toFloat else n.natAbs.toUInt64.toFloat

def toDouble : Number → Float
  | int n => doubleOfInt n
  | double x => x

def text : Number → String
  | int n => toString n
  | double x => Decimal.Layout.json.text x

def greatestPower : Nat := 308

def powerOfTen (n : Nat) : Float := Float.ofScientific 1 false n

/-- Multiply by a power of ten in one step, or first divide by the greatest one as often as it takes.
Each step rounds. There is no result beyond the range of doubles. -/
def scaled? : Nat → Float → Int → Option Float
  | 0, x, _ => some x
  | fuel + 1, x, exponent =>
    if exponent.natAbs ≤ greatestPower then
      if exponent < 0 then some (x / powerOfTen exponent.natAbs)
      else
        let y := x * powerOfTen exponent.natAbs
        if y.isInf then none else some y
    else if x == 0.0 then some x
    else if 0 ≤ exponent then none
    else scaled? fuel (x / powerOfTen greatestPower) (exponent + greatestPower)

/-- The double `significand × 10 ^ exponent`, if it is in range. -/
def ofDecimal? (negative : Bool) (significand : Nat) (exponent : Int) : Option Float :=
  (scaled? 8 significand.toUInt64.toFloat exponent).map fun x => if negative then -x else x

end Number

end BreakpointProps.Json
