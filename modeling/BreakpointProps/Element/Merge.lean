import BreakpointProps.Element.Basic
import BreakpointProps.ResponsiveProps

/-!
How the breakpoints among the values of an element are merged into its class list.
-/

namespace BreakpointProps.Props

/-- Is some breakpoint given a value that counts as true? -/
def hasBreakpoint (props : Props) : Bool :=
  Breakpoint.all.any fun b => (props.get? b.name).any PropValue.isTruthy

def string? (props : Props) (name : String) : Option String :=
  (props.get? name).bind PropValue.string?

/-- The class lists among the values. What is no string counts for nothing. -/
def responsive (props : Props) : ResponsiveProps where
  className := props.string? "className"
  sm := props.string? Breakpoint.sm.name
  md := props.string? Breakpoint.md.name
  lg := props.string? Breakpoint.lg.name
  xl := props.string? Breakpoint.xl.name
  xxl := props.string? Breakpoint.xxl.name

/-- Is this one of the names that merging takes out? -/
def isMerged (name : String) : Bool := name == "className" || (Breakpoint.ofName? name).isSome

/-- The values without the breakpoints, and last the merged class list. -/
def merged (props : Props) : Props :=
  ⟨props.entries.filter (fun (name, _) => !isMerged name)
    ++ [("className", .string props.responsive.merged)]⟩

/-- The values that an element is made from: merged if some breakpoint is given, else as they are. -/
def folded (props : Props) : Props := if props.hasBreakpoint then props.merged else props

end BreakpointProps.Props
