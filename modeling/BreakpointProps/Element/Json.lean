import BreakpointProps.Element.Basic
import BreakpointProps.Json.Decode

/-!
Elements and their values as JSON.
-/

namespace BreakpointProps

open Json (Tree Fault Origin Slot)

mutual

/-- An element as JSON. -/
def Element.toJson : Element → Json
  | .mk kind props children =>
    .object [("kind", .string kind), ("props", props.toJson), ("children", .array (Child.listToJson children))]

/-- A child as JSON. -/
def Child.toJson : Child → Json
  | .text content => .string content
  | .element child => child.toJson

/-- Children as JSON. -/
def Child.listToJson : List Child → List Json
  | [] => []
  | child :: rest => child.toJson :: Child.listToJson rest

end

/-- The values that a JSON object stands for. -/
def Props.ofMembers (members : List (String × Json)) : Props :=
  .ofList (members.map fun (name, value) => (name, PropValue.ofJson value))

/-- Is the name of each of these fields given at most once? -/
def Element.isUnambiguous (members : List (String × Json)) : Bool :=
  ["kind", "props", "children"].all fun name => (members.filter fun m => m.1 == name).length ≤ 1

mutual

/-- The child that JSON stands for: a string is a text, a record an element. -/
def Child.ofJson? : Json → Option Child
  | .string content => some (.text content)
  | .array [.string kind, .object members, .array items] => do
    let children ← Child.listOfJson? items
    return .element (.mk kind (.ofMembers members) children)
  | .object members =>
    if Element.isUnambiguous members then do
      let (kind, props, children) ← Child.fieldsOfJson? members
      return .element (.mk (← kind) (← props) (← children))
    else none
  | _ => none

/-- The children that JSON stands for. -/
def Child.listOfJson? : List Json → Option (List Child)
  | [] => some []
  | item :: rest => do return (← Child.ofJson? item) :: (← Child.listOfJson? rest)

/-- The fields of an element. There is no result if one of them is not what it should be. -/
def Child.fieldsOfJson? :
    List (String × Json) → Option (Option String × Option Props × Option (List Child))
  | [] => some (none, none, none)
  | ("kind", value) :: rest => match value with
    | .string kind => do
      let (_, props, children) ← Child.fieldsOfJson? rest
      return (some kind, props, children)
    | _ => none
  | ("props", value) :: rest => match value with
    | .object members => do
      let (kind, _, children) ← Child.fieldsOfJson? rest
      return (kind, some (.ofMembers members), children)
    | _ => none
  | ("children", value) :: rest => match value with
    | .array items => do
      let (kind, props, _) ← Child.fieldsOfJson? rest
      return (kind, props, some (← Child.listOfJson? items))
    | _ => none
  | _ :: rest => Child.fieldsOfJson? rest

end

/-- The values that a tree stands for. -/
def Props.decode (tree : Tree) : Except Fault Props := do
  let members ← tree.asMembers Tree.json
  return .ofMembers members

def Child.decode (slot : Slot) (tree : Tree) : Except Fault Child := do
  match Child.ofJson? (← tree.json) with
  | some child => return child
  | none => .error ⟨.noForm "Node", slot.settled⟩

/-- The fields of an element as far as they are known. -/
structure Element.Draft where
  kind : Option String := none
  props : Option Props := none
  children : Option (List Child) := none

def Element.shape : Tree.Shape := ⟨"Element", ["kind", "props", "children"], false⟩

def Element.Draft.store (draft : Draft) (name : String) (value : Tree) : Except Fault Draft :=
  match name with
  | "kind" => do return { draft with kind := some (← value.asString) }
  | "props" => do return { draft with props := some (← Props.decode value) }
  | _ => do return { draft with children := some (← value.asList Child.decode) }

def Element.decode (tree : Tree) : Except Fault Element := do
  let (draft, stop) ← tree.asRecord .text Element.shape Draft.store {}
  let kind ← Tree.required "kind" stop draft.kind
  let props ← Tree.required "props" stop draft.props
  let children ← Tree.required "children" stop draft.children
  return .mk kind props children

end BreakpointProps
