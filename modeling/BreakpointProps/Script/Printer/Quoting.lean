/-!
How a string is written that has no spelling of its own: between quotes, with escapes for what cannot
stand there. Surrogates have no characters, so a string holds them as the escapes that name them, and
these are written as they are.
-/

namespace BreakpointProps.Script.Quoting

def hexValue? (c : Char) : Option Nat :=
  if '0' ≤ c && c ≤ '9' then some (c.toNat - '0'.toNat)
  else if 'a' ≤ c && c ≤ 'f' then some (c.toNat - 'a'.toNat + 10)
  else if 'A' ≤ c && c ≤ 'F' then some (c.toNat - 'A'.toNat + 10)
  else none

def hexNumber? (digits : List Char) : Option Nat :=
  (digits.mapM hexValue?).map fun values => values.foldl (fun n d => 16 * n + d) 0

/-- Does the text behind a backslash name a surrogate? -/
def namesSurrogate (rest : List Char) : Bool :=
  let digits := match rest with
    | 'u' :: '\x7b' :: digits => digits.take 4
    | 'u' :: digits => digits.take 4
    | _ => []
  match hexNumber? digits with
  | some n => digits.length == 4 && 0xD800 ≤ n && n ≤ 0xDFFF
  | none => false

def hexDigit (n : Nat) : Char := (Nat.digitChar n)

/-- A character as it stands between the quotes, followed by `rest`. -/
def escaped (quote c : Char) (rest : List Char) : List Char :=
  if c == quote || (c == '\\' && !namesSurrogate rest) then ['\\', c]
  else match c with
    | '\x00' => if rest.head?.any Char.isDigit then ['\\', 'x', '0', '0'] else ['\\', '0']
    | '\x08' => ['\\', 'b']
    | '\x0c' => ['\\', 'f']
    | '\n' => ['\\', 'n']
    | '\r' => ['\\', 'r']
    | '\x0b' => ['\\', 'v']
    | '\t' => ['\t']
    | '\u2028' => ['\\', 'u', '2', '0', '2', '8']
    | '\u2029' => ['\\', 'u', '2', '0', '2', '9']
    | '\ufeff' => ['\\', 'u', 'F', 'E', 'F', 'F']
    | c =>
      if c.toNat < 0x20 then ['\\', 'x', hexDigit (c.toNat / 16), hexDigit (c.toNat % 16)] else [c]

/-- The characters of a string as they stand between the quotes. -/
def escapedChars (quote : Char) : List Char → List Char
  | [] => []
  | c :: rest => escaped quote c rest ++ escapedChars quote rest

/-- The quote that has to be escaped less often; the double one if both are as good. -/
def bestQuote (value : List Char) : Char :=
  if value.count '\'' < value.count '"' then '\'' else '"'

def quoted (value : String) : String :=
  let quote := bestQuote value.toList
  String.ofList (quote :: escapedChars quote value.toList ++ [quote])

end BreakpointProps.Script.Quoting
