import BreakpointProps.Decimal.Literal
import BreakpointProps.Text.CharClass
import BreakpointProps.Yaml.Document

/-!
What a scalar stands for where nothing in particular is expected: a plain one may be null, a truth
value or a number, every other one is a string unless its tag says otherwise.
-/

namespace BreakpointProps.Yaml

/-- What was found where something else was expected. -/
inductive Found where
  | null
  | bool (b : Bool)
  | integer (n : Int)
  | number (x : Float)
  | string (s : String)
  | sequence
  | mapping
  deriving Inhabited

/-- An integer with its width if that is more than usual. -/
def integerText (n : Int) : String :=
  let name := "integer \x60" ++ toString n ++ "\x60"
  if n < -(Nat.pow 2 63 : Int) then name ++ " as i128"
  else if (Nat.pow 2 64 : Int) ≤ n then name ++ " as u128"
  else name

def numberText (x : Float) : String :=
  let text := Decimal.Layout.plain.text x
  if text.toList.contains '.' then text else text ++ ".0"

def Found.text : Found → String
  | null => "unit value"
  | bool b => "boolean \x60" ++ toString b ++ "\x60"
  | integer n => integerText n
  | number x => "floating point \x60" ++ numberText x ++ "\x60"
  | string s => "string " ++ Text.quoted s
  | sequence => "sequence"
  | mapping => "map"

namespace Scalar

def isNull (text : String) : Bool := ["null", "Null", "NULL", "~"].contains text

/-- The truth value that a word stands for. -/
def bool? (text : String) : Option Bool :=
  if ["true", "True", "TRUE"].contains text then some true
  else if ["false", "False", "FALSE"].contains text then some false
  else none

/-- Does a text only look like a number, since it has digits behind a zero at its start? -/
def isPadded (text : List Char) : Bool :=
  match (match text with
    | '-' :: rest => rest
    | '+' :: rest => rest
    | rest => rest) with
  | '0' :: c :: rest => (c :: rest).all Char.isDigit
  | _ => false

/-- The number that digits in a radix spell. -/
def natural? (radix : Nat) (digits : List Char) : Option Nat :=
  if digits.isEmpty then none
  else digits.foldlM (fun n c => (Decimal.digitValue? radix c).map (radix * n + ·)) 0

/-- The number that digits spell behind the mark of a radix. -/
def radixNumber? : List Char → Option Nat
  | '0' :: 'x' :: digits => natural? 16 digits
  | '0' :: 'o' :: digits => natural? 8 digits
  | '0' :: 'b' :: digits => natural? 2 digits
  | _ => none

/-- The number that a text without a sign spells. -/
def unsigned? (text : List Char) : Option Nat :=
  (radixNumber? text).or (if isPadded text then none else natural? 10 text)

/-- The integer that a text spells, with at most 128 bits. -/
def integer? (text : List Char) : Option Int :=
  match text with
  | '-' :: rest => ((unsigned? rest).filter (· ≤ Nat.pow 2 127)).map fun n => -(n : Int)
  | '+' :: rest => ((unsigned? rest).filter (· < Nat.pow 2 128)).map fun n => (n : Int)
  | rest => ((unsigned? rest).filter (· < Nat.pow 2 128)).map fun n => (n : Int)

/-- Is this a decimal number without a sign? -/
def isDecimal (text : List Char) : Bool :=
  let whole := text.takeWhile Char.isDigit
  let rest := text.dropWhile Char.isDigit
  let (fraction, rest) := match rest with
    | '.' :: rest => (rest.takeWhile Char.isDigit, rest.dropWhile Char.isDigit)
    | rest => ([], rest)
  let isExponent (digits : List Char) : Bool := !digits.isEmpty && digits.all Char.isDigit
  let ends := match rest with
    | [] => true
    | e :: '-' :: digits => (e == 'e' || e == 'E') && isExponent digits
    | e :: '+' :: digits => (e == 'e' || e == 'E') && isExponent digits
    | e :: digits => (e == 'e' || e == 'E') && isExponent digits
  !(whole.isEmpty && fraction.isEmpty) && ends

/-- The number that a text spells, if it is within the range of doubles or a word for what is not. -/
def number? (text : String) : Option Float :=
  let infinity : Float := 1.0 / 0.0
  if [".inf", ".Inf", ".INF", "+.inf", "+.Inf", "+.INF"].contains text then some infinity
  else if ["-.inf", "-.Inf", "-.INF"].contains text then some (-infinity)
  else if [".nan", ".NaN", ".NAN"].contains text then some (0.0 / 0.0)
  else
    let (isNegative, digits) := match text.toList with
      | '-' :: rest => (true, rest)
      | '+' :: rest => (false, rest)
      | rest => (false, rest)
    if !isDecimal digits then none
    else
      let x := Decimal.doubleOfText digits
      if x.isInf then none else some (if isNegative then -x else x)

def plainValue (text : String) : Found :=
  if text.isEmpty || isNull text then .null
  else match bool? text with
    | some b => .bool b
    | none =>
      match integer? text.toList with
      | some n => .integer n
      | none =>
        match if isPadded text.toList then none else number? text with
        | some x => .number x
        | none => .string text

/-- The start of the names of the tags that the format defines. -/
def standardTag (name : String) : String := "tag:yaml.org,2002:" ++ name

/-- What a scalar stands for, or what its tag asks for in vain. -/
def value (tag : Option String) (text : String) (style : ScalarStyle) : Found ⊕ String :=
  let orElse (found : Option Found) (wanted : String) : Found ⊕ String :=
    match found with
    | some found => .inl found
    | none => .inr wanted
  match tag with
  | none => .inl (if style == .plain then plainValue text else .string text)
  | some tag =>
    if tag == standardTag "bool" then orElse ((bool? text).map .bool) "a boolean"
    else if tag == standardTag "int" then orElse ((integer? text.toList).map .integer) "an integer"
    else if tag == standardTag "float" then orElse ((number? text).map .number) "a float"
    else if tag == standardTag "null" then orElse (if isNull text then some .null else none) "null"
    else if tag.startsWith "!" && style == .plain then .inl (plainValue text)
    else .inl (.string text)

end Scalar

end BreakpointProps.Yaml
