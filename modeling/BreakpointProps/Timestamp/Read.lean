import BreakpointProps.Text.CharClass
import BreakpointProps.Timestamp

/-!
Reading points in time. Blanks are allowed between the parts, a blank may stand for the letter between
date and time, and the zone may be any offset from the zero meridian.
-/

namespace BreakpointProps.Timestamp

def skipSpace (s : List Char) : List Char := s.dropWhile Text.isWhiteSpace

/-- The number that up to `width` digits spell, at least one, and what follows them. -/
def number (width : Nat) (s : List Char) : Except Flaw (Nat × List Char) :=
  let found := (s.take width).takeWhile Char.isDigit
  match s, found with
  | [], _ => .error .tooShort
  | _, [] => .error .invalid
  | _, _ =>
    let value := found.foldl (fun n c => 10 * n + (c.toNat - 48)) 0
    if value < Nat.pow 2 63 then .ok (value, s.drop found.length) else .error .outOfRange

/-- A number within bounds, perhaps behind white space. -/
def bounded (low high : Nat) (s : List Char) : Except Flaw (Nat × List Char) := do
  let (n, rest) ← number 2 (skipSpace s)
  if low ≤ n && n ≤ high then return (n, rest) else .error .outOfRange

/-- A year: four digits, or a sign and any number of digits. -/
def year (s : List Char) : Except Flaw (Int × List Char) := do
  let s := skipSpace s
  let (n, rest) ← match s with
    | '-' :: rest => do
      let (n, rest) ← number rest.length rest
      pure (-(n : Int), rest)
    | '+' :: rest => do
      let (n, rest) ← number rest.length rest
      pure ((n : Int), rest)
    | _ => do
      let (n, rest) ← number 4 s
      pure ((n : Int), rest)
  if -(Nat.pow 2 31 : Int) ≤ n && n < (Nat.pow 2 31 : Int) then return (n, rest) else .error .outOfRange

/-- A mark between two parts, perhaps behind white space. -/
def mark (c : Char) (s : List Char) : Except Flaw (List Char) :=
  match skipSpace s with
  | [] => .error .tooShort
  | d :: rest => if c == d then .ok rest else .error .invalid

/-- The digits behind the point of a second, if there is one, in nanoseconds. Digits behind the ninth
do not count. -/
def fraction (s : List Char) : Except Flaw (Nat × List Char) :=
  match s with
  | '.' :: rest => do
    let (n, after) ← number 9 rest
    return (n * Nat.pow 10 (9 - (rest.length - after.length)), after.dropWhile Char.isDigit)
  | _ => .ok (0, s)

def byteCount (s : List Char) : Nat := s.foldl (fun n c => n + c.utf8Size) 0

/-- Two digits of an offset, the first of which is below a bound. -/
def offsetDigits (bound : Nat) (s : List Char) : Except Flaw (Nat × List Char) :=
  if byteCount s < 2 then .error .tooShort
  else match s with
    | a :: b :: rest =>
      if a.isDigit && b.isDigit then
        if a.toNat - 48 < bound then .ok (10 * (a.toNat - 48) + (b.toNat - 48), rest)
        else .error .outOfRange
      else .error .invalid
    | _ => .error .invalid

def zone (s : List Char) : Except Flaw (Int × List Char) := do
  match skipSpace s with
  | [] => .error .tooShort
  | 'Z' :: rest | 'z' :: rest => return (0, rest)
  | c :: rest =>
    if "UTC" == String.ofList ((c :: rest.take 2).map Char.toUpper) then return (0, rest.drop 2)
    else if c != '+' && c != '-' && c != '−' then .error .invalid
    else
      let (hours, rest) ← offsetDigits 10 rest
      let (minutes, rest) ← offsetDigits 6 (rest.dropWhile fun c => c == ':' || Text.isWhiteSpace c)
      let offset : Int := hours * 3600 + minutes * 60
      return (if c == '+' then offset else -offset, rest)

/-- The letter or the blank between date and time. -/
def separator (s : List Char) : Except Flaw (List Char) :=
  match s with
  | [] => .error .tooShort
  | c :: rest => if c == 't' || c == 'T' || c == ' ' then .ok rest else .error .invalid

/-- The point in time that a text tells. -/
def ofText (text : String) : Except Flaw Timestamp := do
  let (year, s) ← year text.toList
  let (month, s) ← bounded 1 12 (← mark '-' s)
  let (day, s) ← bounded 1 31 (← mark '-' s)
  let (hour, s) ← bounded 0 23 (← separator s)
  let (minute, s) ← bounded 0 59 (← mark ':' s)
  let (second, s) ← bounded 0 60 (← mark ':' s)
  let (nanos, s) ← fraction s
  let (offset, s) ← zone s
  if !(skipSpace s).isEmpty then .error .tooLong
  else
    let date : Date := ⟨year, month, day⟩
    if !date.isValid || 86400 ≤ offset.natAbs then .error .outOfRange
    else
      let leap := second == 60
      let seconds := date.toDays * 86400 + hour * 3600 + minute * 60 + (if leap then 59 else second) - offset
      if !Date.hasYear (Date.ofDays (seconds.fdiv 86400)).year then .error .impossible
      else return ⟨seconds, if leap then 1000000000 + nanos else nanos⟩

end BreakpointProps.Timestamp
