import BreakpointProps.Json.Basic

/-!
Elements as they are made while a program runs: a kind, named values in the order in which they were
given, and children.
-/

namespace BreakpointProps

/-- A value that is given to an element. -/
inductive PropValue where
  | null
  | bool (b : Bool)
  | number (x : Float)
  | string (s : String)
  /-- An array or an object, with its members in the order of their names. -/
  | json (value : Json)
  deriving Inhabited

namespace PropValue

/-- Does the value count as true where a truth value is wanted? -/
def isTruthy : PropValue → Bool
  | null => false
  | bool b => b
  | number x => x != 0.0 && !x.isNaN
  | string s => !s.isEmpty
  | json _ => true

def string? : PropValue → Option String
  | string s => some s
  | _ => none

def text : PropValue → String
  | null => "null"
  | bool b => toString b
  | number x => Decimal.Layout.plain.text x
  | string s => s
  | json value => value.compact

/-- The value as JSON. A number that JSON lacks becomes null when it is written. -/
def toJson : PropValue → Json
  | null => .null
  | bool b => .bool b
  | number x => .number (.double x)
  | string s => .string s
  | json value => value

/-- The value that JSON stands for. Every number becomes a double. -/
def ofJson : Json → PropValue
  | .null => null
  | .bool b => bool b
  | .number n => number n.toDouble
  | .string s => string s
  | value => json value.normalized

end PropValue

/-- Named values in the order in which the names were first given. -/
structure Props where
  entries : List (String × PropValue) := []
  deriving Inhabited

namespace Props

def get? (props : Props) (name : String) : Option PropValue := props.entries.lookup name

def replace (name : String) (value : PropValue) :
    List (String × PropValue) → List (String × PropValue)
  | [] => []
  | (other, held) :: rest =>
    if other == name then (other, value) :: rest else (other, held) :: replace name value rest

/-- Give a name a value. A new name comes last; one that is there stays in its place. -/
def insert (props : Props) (name : String) (value : PropValue) : Props :=
  if (props.get? name).isSome then ⟨replace name value props.entries⟩
  else ⟨props.entries ++ [(name, value)]⟩

/-- Take a name out. The others stay in their order. -/
def erase (props : Props) (name : String) : Props :=
  ⟨props.entries.filter fun (other, _) => other != name⟩

/-- Give names their values, one after the other. -/
def ofList (entries : List (String × PropValue)) : Props :=
  entries.foldl (fun props (name, value) => props.insert name value) {}

/-- The names and values as a JSON object in their order. -/
def toJson (props : Props) : Json :=
  .object (props.entries.map fun (name, value) => (name, value.toJson))

end Props

mutual

inductive Element where
  | mk (kind : String) (props : Props) (children : List Child)

/-- What stands between the tags of an element. -/
inductive Child where
  | text (content : String)
  | element (child : Element)

end

instance : Inhabited Element := ⟨.mk "" {} []⟩
instance : Inhabited Child := ⟨.text ""⟩

namespace Element

def kind : Element → String
  | mk kind _ _ => kind

def props : Element → Props
  | mk _ props _ => props

def children : Element → List Child
  | mk _ _ children => children

def className? (element : Element) : Option String :=
  (element.props.get? "className").bind PropValue.string?

end Element

end BreakpointProps
