import BreakpointProps.Json.Decode
import BreakpointProps.ResponsiveProps

/-!
Class lists for the breakpoints as JSON.
-/

namespace BreakpointProps.ResponsiveProps

open Json (Tree Fault Origin)

/-- The class lists by name, those that are there. -/
def entries (props : ResponsiveProps) : List (String × String) :=
  let named := ("className", props.className) :: Breakpoint.all.map fun b => (b.name, props.get? b)
  named.filterMap fun (name, value) => value.map fun classes => (name, classes)

/-- The class lists as JSON. -/
def toJson (props : ResponsiveProps) : Json :=
  .object (props.entries.map fun (name, classes) => (name, .string classes))

/-- The fields, none of which has to be there. -/
def shape : Tree.Shape := ⟨"ResponsiveProps", "className" :: Breakpoint.all.map Breakpoint.name, true⟩

/-- Fill in a class list, or leave it out. -/
def store (props : ResponsiveProps) (name : String) (value : Tree) : Except Fault ResponsiveProps := do
  let classes ← value.asOption Tree.asString
  match Breakpoint.ofName? name, classes with
  | none, _ => return { props with className := classes }
  | some b, some classes => return props.set b classes
  | some _, none => return props

/-- The class lists that a tree stands for. -/
def decode (origin : Origin) (tree : Tree) : Except Fault ResponsiveProps := do
  let (props, _) ← tree.asRecord origin shape store {}
  return props

end BreakpointProps.ResponsiveProps
