import BreakpointProps.Script.Lexer.Blank

/-!
Escapes in strings, templates and identifiers. Each reader gets the characters after the backslash
and says what they stand for and how many of them it took, also when they are malformed.
-/

namespace BreakpointProps.Script

/-- What an escape stands for; the characters it took after the backslash; faults noted on the way. -/
structure Escape where
  value : Except Fault (List Char)
  length : Nat
  noted : List Fault := []

namespace Escape

/-- Digits of a radix, with separators: their value, their count, the characters taken, and whether a
separator does not stand between two digits. -/
structure Digits where
  value : Nat := 0
  count : Nat := 0
  length : Nat := 0
  digits : List Char := []
  misplaced : Bool := false

/-- Is a separator forbidden beside this character? -/
def forbidsSeparator (radix : Nat) (c : Char) : Bool :=
  if radix == 16 then ['.', 'X', '_', 'x'].contains c
  else ['.', 'B', 'E', 'O', '_', 'b', 'e', 'o'].contains c

/-- Read digits, at most `limit` of them if a limit is given. -/
def digits (radix : Nat) (limit : Option Nat) : List Char → Option Char → Digits → Digits
  | [], _, d => d
  | c :: cs, previous, d =>
    if limit == some d.count && d.count != 0 then d
    else if c == '_' then
      let next := cs.head?
      let allowed := (next.bind (Decimal.digitValue? radix)).isSome
      let misplaced := !allowed || previous.any (forbidsSeparator radix)
        || next.any (forbidsSeparator radix)
      digits radix limit cs previous
        { d with length := d.length + 1, misplaced := d.misplaced || misplaced }
    else match Decimal.digitValue? radix c with
      | none => d
      | some v =>
        digits radix limit cs (some c)
          { d with value := d.value * radix + v, count := d.count + 1, length := d.length + 1,
                   digits := d.digits ++ [c] }

def Digits.noted (d : Digits) : List Fault := if d.misplaced then [.misplacedSeparator] else []

def scalar? (n : Nat) : Option Char :=
  if n < 0xD800 || (0xDFFF < n && n < 0x110000) then some (Char.ofNat n) else none

/-- The text that stands for a code point without a character: the escape as it is written. -/
def surrogateText (braced : Bool) (cs : List Char) : List Char :=
  if braced then
    ['\\', 'u', '{'] ++ (cs.take 6).takeWhile (· != '}') ++ ['}']
  else ['\\', 'u'] ++ cs.take 4

/-- An escape by code point; `cs` follows the letter `u`. -/
def unicode (cs : List Char) : Escape :=
  let braced := cs.head? == some '{'
  let body := if braced then cs.drop 1 else cs
  let opening := if braced then 2 else 1
  let d := digits 16 (if braced then none else some 4) body none {}
  let malformed : Fault := .badEscape (if braced then "1-6 hex characters in the range 0 to 10FFFF."
    else "4 hex characters")
  let complete := if braced then 0 < d.count else d.count == 4
  if !complete || 0x10FFFF < d.value then ⟨.error malformed, opening + d.length, d.noted⟩
  else
    let (value, length) := match scalar? d.value with
      | some c => ([c], d.length)
      | none => (surrogateText braced body, if braced then ((body.take 6).takeWhile (· != '}')).length
          else min 4 body.length)
    if braced then
      if (body.drop length).head? == some '}' then ⟨.ok value, opening + length + 1, d.noted⟩
      else ⟨.error .invalidUnicodeEscape, opening + length, d.noted⟩
    else ⟨.ok value, opening + length, d.noted⟩

/-- An octal escape; `cs` begins with an octal digit. At most three digits, of a value below 256. -/
def octal (inTemplate : Bool) (first : Char) (cs : List Char) : Escape :=
  let value (c : Char) := (Decimal.digitValue? 8 c).getD 0
  match first, cs.head?.bind (Decimal.digitValue? 8) with
  | '0', none => ⟨.ok ['\x00'], 1, []⟩
  | _, second =>
    if inTemplate then ⟨.error .legacyOctal, 1, []⟩
    else
      match second with
      | none => ⟨.ok [Char.ofNat (value first)], 1, [.legacyOctal]⟩
      | some v =>
        let two := value first * 8 + v
        match (cs.drop 1).head?.bind (Decimal.digitValue? 8) with
        | none => ⟨.ok [Char.ofNat two], 2, [.legacyOctal]⟩
        | some w =>
          if two * 8 + w < 256 then ⟨.ok [Char.ofNat (two * 8 + w)], 3, [.legacyOctal]⟩
          else ⟨.ok [Char.ofNat two], 2, [.legacyOctal]⟩

/-- The escape that `cs` begins with; `cs` follows the backslash. -/
def read (inTemplate : Bool) (cs : List Char) : Escape :=
  match cs with
  | [] => ⟨.error .invalidStringEscape, 0, []⟩
  | 'n' :: _ => ⟨.ok ['\n'], 1, []⟩
  | 'r' :: _ => ⟨.ok ['\r'], 1, []⟩
  | 't' :: _ => ⟨.ok ['\t'], 1, []⟩
  | 'b' :: _ => ⟨.ok ['\x08'], 1, []⟩
  | 'v' :: _ => ⟨.ok ['\x0b'], 1, []⟩
  | 'f' :: _ => ⟨.ok ['\x0c'], 1, []⟩
  | '\r' :: '\n' :: _ => ⟨.ok [], 2, []⟩
  | 'x' :: rest =>
    let d := digits 16 (some 2) rest none {}
    if d.count == 2 then ⟨.ok ((scalar? d.value).toList), 1 + d.length, d.noted⟩
    else ⟨.error (.badEscape "2 hex characters"), 1 + d.length, d.noted⟩
  | 'u' :: rest => unicode rest
  | c :: rest =>
    if isLineEnd c then ⟨.ok [], 1, []⟩
    else if '0' ≤ c && c ≤ '7' then octal inTemplate c rest
    else ⟨.ok [c], 1, []⟩

end Escape

end BreakpointProps.Script
