import BreakpointProps.Json.Number

/-!
JSON values and how they are written: strings between quotes, with escapes for quotes, backslashes and the
control characters below the space. The members of an object keep the order in which they are
given; `normalized` puts them into the order of their names.
-/

namespace BreakpointProps

/-- A JSON value. -/
inductive Json where
  | null
  | bool (b : Bool)
  | number (n : Json.Number)
  | string (s : String)
  | array (items : List Json)
  | object (members : List (String × Json))
  deriving Inhabited

namespace Json

/-- A lower case hexadecimal digit. -/
def hexDigit (n : Nat) : Char := Nat.digitChar n

/-- A character between the quotes. -/
def escaped (c : Char) : List Char :=
  match c with
  | '"' => ['\\', '"']
  | '\\' => ['\\', '\\']
  | '\x08' => ['\\', 'b']
  | '\x0c' => ['\\', 'f']
  | '\n' => ['\\', 'n']
  | '\r' => ['\\', 'r']
  | '\t' => ['\\', 't']
  | c => if c.toNat < 0x20 then ['\\', 'u', '0', '0', hexDigit (c.toNat / 16), hexDigit (c.toNat % 16)]
    else [c]

/-- A string as JSON writes it. -/
def quoted (text : String) : String :=
  String.ofList ('"' :: text.toList.flatMap escaped ++ ['"'])

def ofNat (n : Nat) : Json := number (.int n)


mutual

/-- The characters of a value, without blanks. -/
def compactChars : Json → List Char
  | null => "null".toList
  | bool b => if b then "true".toList else "false".toList
  | number n => n.text.toList
  | string s => (quoted s).toList
  | array items => '[' :: compactItems items ++ [']']
  | object members => '{' :: compactMembers members ++ ['}']

/-- Items with commas between them. -/
def compactItems : List Json → List Char
  | [] => []
  | [item] => compactChars item
  | item :: rest => compactChars item ++ ',' :: compactItems rest

/-- Members with commas between them. -/
def compactMembers : List (String × Json) → List Char
  | [] => []
  | [(name, value)] => (quoted name).toList ++ ':' :: compactChars value
  | (name, value) :: rest =>
    (quoted name).toList ++ ':' :: compactChars value ++ ',' :: compactMembers rest

end

/-- A value on one line, without blanks. -/
def compact (value : Json) : String := String.ofList value.compactChars

/-- A new line, indented by two blanks for each level. -/
def newLine (level : Nat) : List Char := '\n' :: List.replicate (2 * level) ' '

mutual

/-- The characters of a value with a line for each item and each member. -/
def prettyChars (level : Nat) : Json → List Char
  | null => "null".toList
  | bool b => if b then "true".toList else "false".toList
  | number n => n.text.toList
  | string s => (quoted s).toList
  | array [] => ['[', ']']
  | array (item :: rest) =>
    '[' :: newLine (level + 1) ++ prettyChars (level + 1) item ++ prettyItems (level + 1) rest
      ++ newLine level ++ [']']
  | object [] => ['{', '}']
  | object ((name, value) :: rest) =>
    '{' :: newLine (level + 1) ++ (quoted name).toList ++ ':' :: ' ' :: prettyChars (level + 1) value
      ++ prettyMembers (level + 1) rest ++ newLine level ++ ['}']

/-- Further items, each after a comma and on a line of its own. -/
def prettyItems (level : Nat) : List Json → List Char
  | [] => []
  | item :: rest => ',' :: newLine level ++ prettyChars level item ++ prettyItems level rest

/-- Further members, each after a comma and on a line of its own. -/
def prettyMembers (level : Nat) : List (String × Json) → List Char
  | [] => []
  | (name, value) :: rest =>
    ',' :: newLine level ++ (quoted name).toList ++ ':' :: ' ' :: prettyChars level value
      ++ prettyMembers level rest

end

/-- A value with a line for each item and each member. -/
def pretty (value : Json) : String := String.ofList (value.prettyChars 0)

/-- Put a member in its place among members in the order of their names. It takes the place of a
member of the same name. -/
def insertMember (name : String) (value : Json) : List (String × Json) → List (String × Json)
  | [] => [(name, value)]
  | (other, held) :: rest =>
    if name == other then (name, value) :: rest
    else if name < other then (name, value) :: (other, held) :: rest
    else (other, held) :: insertMember name value rest

/-- Members in the order of their names. Of members of one name the last stays. -/
def sortMembers (members : List (String × Json)) : List (String × Json) :=
  members.foldl (fun sorted (name, value) => insertMember name value sorted) []

mutual

/-- The value with the members of all objects in the order of their names. -/
def normalized : Json → Json
  | array items => array (normalizedItems items)
  | object members => object (sortMembers (normalizedMembers members))
  | value => value

def normalizedItems : List Json → List Json
  | [] => []
  | item :: rest => normalized item :: normalizedItems rest

def normalizedMembers : List (String × Json) → List (String × Json)
  | [] => []
  | (name, value) :: rest => (name, normalized value) :: normalizedMembers rest

end

def get? (value : Json) (name : String) : Option Json :=
  match value with
  | object members => members.lookup name
  | _ => none

end Json

end BreakpointProps
