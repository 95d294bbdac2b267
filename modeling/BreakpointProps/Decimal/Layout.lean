import BreakpointProps.Decimal.Shortest

/-!
Doubles as text. A `Layout` says where the positional notation ends and how whole numbers and the
values that are no numbers are written.
-/

namespace BreakpointProps.Decimal

/-- The decisions of a number format. -/
structure Layout where
  /-- The point positions, counted from the first digit, that are written without an exponent. -/
  positional : Int → Bool
  /-- What follows the digits of a whole number in positional notation. -/
  wholeSuffix : String
  /-- The text of the value that is no number. -/
  notANumber : String
  /-- The text of positive infinity. -/
  infinity : String
  /-- What stands in front of an exponent that is not negative. -/
  plusSign : String := "+"

namespace Layout

/-- Never an exponent, and no point in a whole number. -/
def plain : Layout := ⟨fun _ => true, "", "NaN", "inf", "+"⟩

/-- The form of numbers in JSON texts: positional from `10 ^ -5` up to `10 ^ 16`, with a point in
every number, and `null` for what is no number. -/
def json : Layout := ⟨fun point => -5 < point && point ≤ 16, ".0", "null", "null", "+"⟩

/-- Positional from `10 ^ -4` up to `10 ^ 16`, with a point in every number written so. -/
def precise : Layout := ⟨fun point => -4 < point && point ≤ 16, ".0", "NaN", "inf", ""⟩

/-- The digits with a point after the first `point` of them. -/
def positionalText (layout : Layout) (digits : List Char) (point : Int) : String :=
  let zeros (n : Int) : List Char := List.replicate n.toNat '0'
  if point ≤ 0 then String.ofList ("0.".toList ++ zeros (-point) ++ digits)
  else if (digits.length : Int) ≤ point then
    String.ofList (digits ++ zeros (point - digits.length)) ++ layout.wholeSuffix
  else String.ofList (digits.take point.toNat ++ '.' :: digits.drop point.toNat)

/-- The digits with a point after the first and the power of ten with its sign. -/
def exponentText (layout : Layout) (digits : List Char) (point : Int) : String :=
  let fraction := match digits.drop 1 with
    | [] => []
    | rest => '.' :: rest
  let sign := if point < 1 then "-" else layout.plusSign
  String.ofList (digits.take 1 ++ fraction) ++ "e" ++ sign ++ toString (point - 1).natAbs

def magnitudeText (layout : Layout) (s : Scientific) : String :=
  let digits := Nat.toDigits 10 s.digits
  let point := s.exponent + digits.length
  if layout.positional point then layout.positionalText digits point else layout.exponentText digits point

def textOfBits (layout : Layout) (bits : Nat) : String :=
  let negative := bits / Nat.pow 2 63 == 1
  let sign := if negative then "-" else ""
  if bits / Nat.pow 2 52 % Nat.pow 2 11 == Nat.pow 2 11 - 1 then
    if bits % Nat.pow 2 52 != 0 then layout.notANumber
    else if layout.infinity == "null" then layout.infinity
    else sign ++ layout.infinity
  else if bits % Nat.pow 2 63 == 0 then sign ++ "0" ++ layout.wholeSuffix
  else sign ++ layout.magnitudeText (Binary.ofBits (bits % Nat.pow 2 63)).shortest

def text (layout : Layout) (x : Float) : String := layout.textOfBits x.toBits.toNat

end Layout

end BreakpointProps.Decimal
