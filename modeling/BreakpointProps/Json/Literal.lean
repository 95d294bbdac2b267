import BreakpointProps.Json.Fault

/-!
Strings and numbers in a JSON text. Each can be read, or passed over without a look at its value: a
string with half a surrogate pair and a number beyond all doubles can only be passed over.
-/

namespace BreakpointProps.Json

/-- What is left of a text, and how many bytes are behind. -/
structure Cursor where
  rest : List Char
  offset : Nat
  deriving Inhabited

namespace Cursor

def ofText (text : String) : Cursor := ⟨text.toList, 0⟩

/-- Go over characters that take one byte each. -/
def skip (cursor : Cursor) (n : Nat) : Cursor := ⟨cursor.rest.drop n, cursor.offset + n⟩

def fault (cursor : Cursor) (flaw : Flaw) : Fault := ⟨.flaw flaw, cursor.offset⟩

/-- The fault that the next character makes: it counts as seen, if there is one. -/
def faultAhead (cursor : Cursor) (flaw : Flaw) : Fault :=
  ⟨.flaw flaw, if cursor.rest.isEmpty then cursor.offset else cursor.offset + 1⟩

def atEnd (cursor : Cursor) : Cursor :=
  ⟨[], cursor.rest.foldl (fun n c => n + c.utf8Size) cursor.offset⟩

/-- The blanks between the tokens of a text. -/
def isBlank (c : Char) : Bool := c == ' ' || c == '\n' || c == '\t' || c == '\r'

def skipBlanks (cursor : Cursor) : Cursor :=
  cursor.skip (cursor.rest.takeWhile isBlank).length

def peek? (cursor : Cursor) : Option Char := cursor.rest.head?

end Cursor

def hexValue? (c : Char) : Option Nat :=
  if '0' ≤ c && c ≤ '9' then some (c.toNat - 48)
  else if 'a' ≤ c && c ≤ 'f' then some (c.toNat - 87)
  else if 'A' ≤ c && c ≤ 'F' then some (c.toNat - 55)
  else none

/-- The four hexadecimal digits of an escape. They are counted in bytes. -/
def hexEscape (cursor : Cursor) : Except Fault (Nat × Cursor) :=
  match cursor.rest with
  | a :: b :: c :: d :: _ =>
    match hexValue? a, hexValue? b, hexValue? c, hexValue? d with
    | some a, some b, some c, some d =>
      .ok (((a * 16 + b) * 16 + c) * 16 + d, cursor.skip 4)
    | _, _, _, _ => .error ⟨.flaw .invalidEscape, cursor.offset + 4⟩
  | rest =>
    if 4 ≤ rest.foldl (fun n c => n + c.utf8Size) 0 then
      .error ⟨.flaw .invalidEscape, cursor.offset + 4⟩
    else .error (cursor.atEnd.fault .endInString)

/-- The character that a one letter escape stands for. -/
def shortEscape? : Char → Option Char
  | '"' => some '"'
  | '\\' => some '\\'
  | '/' => some '/'
  | 'b' => some '\x08'
  | 'f' => some '\x0c'
  | 'n' => some '\n'
  | 'r' => some '\r'
  | 't' => some '\t'
  | _ => none

/-- Is this the first half of a surrogate pair? -/
def isLeading (n : Nat) : Bool := 0xD800 ≤ n && n ≤ 0xDBFF

/-- Is this the second half of a surrogate pair? -/
def isTrailing (n : Nat) : Bool := 0xDC00 ≤ n && n ≤ 0xDFFF

def ofSurrogates (leading trailing : Nat) : Char :=
  Char.ofNat (0x10000 + (leading - 0xD800) * 0x400 + (trailing - 0xDC00))

/-- The character that a numeric escape stands for, behind its letter. -/
def unicodeEscape (cursor : Cursor) : Except Fault (Char × Cursor) := do
  let (leading, next) ← hexEscape cursor
  if isTrailing leading then .error (next.fault .loneSurrogate)
  else if !isLeading leading then .ok (Char.ofNat leading, next)
  else
    -- The second half has to follow in an escape of its own.
    match next.rest with
    | '\\' :: 'u' :: _ =>
      let (trailing, last) ← hexEscape (next.skip 2)
      if isTrailing trailing then .ok (ofSurrogates leading trailing, last)
      else .error (last.fault .loneSurrogate)
    | ['\\'] => .error ((next.skip 1).fault .endInString)
    | '\\' :: _ => .error ((next.skip 2).fault .endOfHexEscape)
    | [] => .error (next.fault .endInString)
    | _ => .error ((next.skip 1).fault .endOfHexEscape)

def escape (cursor : Cursor) : Except Fault (Char × Cursor) :=
  match cursor.rest with
  | [] => .error (cursor.fault .endInString)
  | 'u' :: _ => unicodeEscape (cursor.skip 1)
  | c :: _ =>
    match shortEscape? c with
    | some meant => .ok (meant, cursor.skip 1)
    | none => .error ((cursor.skip 1).fault .invalidEscape)

/-- Pass over the escape behind a backslash. Halves of surrogate pairs pass. -/
def passEscape (cursor : Cursor) : Except Fault Cursor :=
  match cursor.rest with
  | 'u' :: _ => (hexEscape (cursor.skip 1)).map (·.2)
  | _ => (escape cursor).map (·.2)

/-- Read a string from behind its opening quote. -/
def readString (cursor : Cursor) : Except Fault (String × Cursor) :=
  go (cursor.rest.length + 1) cursor []
where
  go : Nat → Cursor → List Char → Except Fault (String × Cursor)
    | 0, cursor, _ => .error (cursor.fault .endInString)
    | fuel + 1, cursor, read =>
      match cursor.rest with
      | [] => .error (cursor.fault .endInString)
      | '"' :: _ => .ok (String.ofList read.reverse, cursor.skip 1)
      | '\\' :: _ => do
        let (c, next) ← escape (cursor.skip 1)
        go fuel next (c :: read)
      | c :: rest =>
        if c.toNat < 0x20 then .error ((cursor.skip 1).fault .controlCharacter)
        else go fuel ⟨rest, cursor.offset + c.utf8Size⟩ (c :: read)

/-- Pass over a string from behind its opening quote. -/
def passString (cursor : Cursor) : Except Fault Cursor :=
  go (cursor.rest.length + 1) cursor
where
  go : Nat → Cursor → Except Fault Cursor
    | 0, cursor => .error (cursor.fault .endInString)
    | fuel + 1, cursor =>
      match cursor.rest with
      | [] => .error (cursor.fault .endInString)
      | '"' :: _ => .ok (cursor.skip 1)
      | '\\' :: _ => do
        let next ← passEscape (cursor.skip 1)
        go fuel next
      | c :: rest =>
        if c.toNat < 0x20 then .error (cursor.fault .controlCharacter)
        else go fuel ⟨rest, cursor.offset + c.utf8Size⟩

/-- The digits ahead, and what follows them. -/
def digits (cursor : Cursor) : List Char × Cursor :=
  let ahead := cursor.rest.takeWhile Char.isDigit
  (ahead, cursor.skip ahead.length)

def natOfDigits (digits : List Char) : Nat := digits.foldl (fun n c => 10 * n + (c.toNat - 48)) 0

/-- Append digits to a significand as long as it fits into 64 bits: the significand, and how many
digits went into it. -/
def accumulate (significand : Nat) : List Char → Nat × Nat
  | [] => (significand, 0)
  | c :: rest =>
    let longer := 10 * significand + (c.toNat - 48)
    if longer < Nat.pow 2 64 then
      let (final, count) := accumulate longer rest
      (final, count + 1)
    else (significand, 0)

/-- A decimal in the making: `significand × 10 ^ exponent`. -/
structure Decimal where
  negative : Bool
  significand : Nat
  exponent : Int

/-- The double of a decimal, which ends here. -/
def Decimal.double (d : Decimal) (stop : Cursor) : Except Fault (Number × Cursor) :=
  match Number.ofDecimal? d.negative d.significand d.exponent with
  | some x => .ok (.double x, stop)
  | none => .error (stop.fault .numberOutOfRange)

/-- The digits of an exponent, as long as their number fits into 31 bits: the number, how many they
are, and whether one did not fit. -/
def exponentDigits (exponent : Nat) : List Char → Nat × Nat × Bool
  | [] => (exponent, 0, false)
  | c :: rest =>
    let longer := 10 * exponent + (c.toNat - 48)
    if longer < Nat.pow 2 31 then
      let (final, count, tooLong) := exponentDigits longer rest
      (final, count + 1, tooLong)
    else (exponent, 1, true)

def readExponent (d : Decimal) (cursor : Cursor) : Except Fault (Number × Cursor) :=
  let afterLetter := cursor.skip 1
  let (below, start) := match afterLetter.peek? with
    | some '-' => (true, afterLetter.skip 1)
    | some '+' => (false, afterLetter.skip 1)
    | _ => (false, afterLetter)
  let (found, stop) := digits start
  if found.isEmpty then
    if start.rest.isEmpty then .error (start.fault .endInValue)
    else .error ((start.skip 1).fault .invalidNumber)
  else
    let (exponent, count, tooLong) := exponentDigits 0 found
    if !tooLong then
      Decimal.double { d with exponent := if below then d.exponent - exponent else d.exponent + exponent } stop
    else if d.significand != 0 && !below then .error ((start.skip count).fault .numberOutOfRange)
    else .ok (.double (if d.negative then -0.0 else 0.0), stop)

def readFraction (d : Decimal) (cursor : Cursor) : Except Fault (Number × Cursor) :=
  let start := cursor.skip 1
  let (found, stop) := digits start
  if found.isEmpty then
    .error (start.faultAhead (if start.rest.isEmpty then .endInValue else .invalidNumber))
  else
    let (significand, count) := accumulate d.significand found
    let d := { d with significand, exponent := d.exponent - count }
    match stop.peek? with
    | some 'e' | some 'E' => readExponent d stop
    | _ => d.double stop

def readNumber (negative : Bool) (cursor : Cursor) : Except Fault (Number × Cursor) :=
  let (found, stop) := digits cursor
  match found with
  | [] =>
    if cursor.rest.isEmpty then .error (cursor.fault .endInValue)
    else .error ((cursor.skip 1).fault .invalidNumber)
  | '0' :: _ :: _ => .error ((cursor.skip 2).fault .invalidNumber)
  | _ =>
    let (significand, count) := accumulate 0 found
    let d : Decimal := ⟨negative, significand, found.length - count⟩
    match stop.peek? with
    | some '.' => readFraction d stop
    | some 'e' | some 'E' => readExponent d stop
    | _ =>
      if count < found.length then d.double stop
      else if !negative then .ok (.int significand, stop)
      else if significand == 0 || Nat.pow 2 63 < significand then
        .ok (.double (-significand.toUInt64.toFloat), stop)
      else .ok (.int (-significand), stop)

/-- Pass over a number, from behind its sign. -/
def passNumber (cursor : Cursor) : Except Fault Cursor :=
  let (found, stop) := digits cursor
  match found with
  | [] => .error ((if cursor.rest.isEmpty then cursor else cursor.skip 1).fault .invalidNumber)
  | '0' :: _ :: _ => .error ((cursor.skip 2).fault .invalidNumber)
  | _ =>
    match stop.peek? with
    | some '.' =>
      let (fraction, stop) := digits (stop.skip 1)
      if fraction.isEmpty then .error (stop.faultAhead .invalidNumber)
      else match stop.peek? with
        | some 'e' | some 'E' => passExponent stop
        | _ => .ok stop
    | some 'e' | some 'E' => passExponent stop
    | _ => .ok stop
where
  passExponent (cursor : Cursor) : Except Fault Cursor :=
    let afterLetter := cursor.skip 1
    let start := match afterLetter.peek? with
      | some '-' | some '+' => afterLetter.skip 1
      | _ => afterLetter
    let (found, stop) := digits start
    if found.isEmpty then
      .error ((if start.rest.isEmpty then start else start.skip 1).fault .invalidNumber)
    else .ok stop

end BreakpointProps.Json
