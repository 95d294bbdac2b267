import BreakpointProps.Config
import BreakpointProps.ResponsiveProps
import BreakpointProps.Script.Node
import BreakpointProps.Text.CharClass

/-!
How one element is rewritten: the class lists of its breakpoints that are known go into its class
list, and the attributes that held them go.
-/

namespace BreakpointProps.Rewrite

open Script

/-- The name of the attribute that holds the class list of an element. -/
def classNameAttribute : String := "className"

/-- What an attribute is to the rewriter. -/
inductive Role where
  /-- A breakpoint whose class list is known. -/
  | staticBreakpoint (breakpoint : Breakpoint) (classes : String)
  /-- A breakpoint whose class list is not known before the program runs. -/
  | dynamicBreakpoint (breakpoint : Breakpoint)
  | staticClassName (classes : String) (span : Span)
  | dynamicClassName
  | other
  deriving DecidableEq, Repr, Inhabited

/-- The text that an expression is known to be: a string, or a template without substitutions. -/
def staticText? : Node → Option String
  | .mk (.string value _) _ _ => some value
  | .mk .template _ [.mk (.templateText raw cooked) _ _] => some (cooked.getD raw)
  | _ => none

/-- The text that the value of an attribute is known to be. -/
def staticValue? : Node → Option String
  | .mk (.string value _) _ _ => some value
  | .mk .container _ [inner] => staticText? inner
  | _ => none

/-- The role of an attribute. One whose name has a namespace has none. -/
def Role.of : Node → Role
  | .mk .attribute span [.mk (.name name) _ _, value] =>
    if name == classNameAttribute then
      match staticValue? value with
      | some classes => .staticClassName classes span
      | none => .dynamicClassName
    else match Breakpoint.ofName? name, staticValue? value with
      | some breakpoint, some classes => .staticBreakpoint breakpoint classes
      | some breakpoint, none => .dynamicBreakpoint breakpoint
      | none, _ => .other
  | _ => .other

/-- Does the attribute stay as it is when the element is rewritten? -/
def Role.isKept : Role → Bool
  | dynamicBreakpoint _ | other => true
  | _ => false

/-- Is this the class list of a breakpoint that is known? -/
def Role.isStaticBreakpoint : Role → Bool
  | staticBreakpoint _ _ => true
  | _ => false

/-- Is this a class list of the element? -/
def Role.isClassName : Role → Bool
  | staticClassName _ _ | dynamicClassName => true
  | _ => false

/-- What the attributes of an element say about its classes; of several attributes with one name the
last one counts. -/
structure Classes where
  props : ResponsiveProps := {}
  /-- The place of the class list of the element. -/
  span : Span := .nowhere
  deriving DecidableEq, Repr, Inhabited

/-- Take in one more attribute. -/
def Classes.add (classes : Classes) : Role → Classes
  | .staticBreakpoint b value => { classes with props := classes.props.set b value }
  | .staticClassName value span => { props := classes.props.withClassName value, span }
  | _ => classes

/-- What the attributes with these roles say. -/
def Classes.ofRoles (roles : List Role) : Classes := roles.foldl Classes.add {}

/-- Attributes know no escapes, so a string that needs some is written as an expression. -/
def needsContainer (value : String) : Bool :=
  value.toList.any (fun c => Text.isControl c || c == '\\' || c == '&')
    || (value.toList.contains '"' && value.toList.contains '\'')

def classNameNode (value : String) (span : Span) : Node :=
  let string := Node.leaf (.string value none) span
  .mk .attribute span
    [.leaf (.name classNameAttribute) span,
     if needsContainer value then .mk .container span [string] else string]

/-- Is an element with these roles rewritten? A class list that is not known cannot be added to. -/
def isRewritten (roles : List Role) : Bool :=
  roles.any Role.isStaticBreakpoint && !roles.contains .dynamicClassName

/-- The attributes of an element after it was rewritten: those that stay, in their order, and then
the class list, if there was one or there are classes. -/
def rewriteAttributes (attributes : List Node) : List Node :=
  let roles := attributes.map Role.of
  if isRewritten roles then
    let classes := Classes.ofRoles roles
    let merged := classes.props.merged
    let kept := attributes.filter fun a => (Role.of a).isKept
    if roles.any Role.isClassName || !merged.isEmpty then kept ++ [classNameNode merged classes.span]
    else kept
  else attributes

/-- What is reported about the attributes of an element. -/
def reports (file : String) (attributes : List Node) : List LogEntry :=
  let roles := attributes.map Role.of
  let untouched := roles.filterMap fun role => match role with
    | .dynamicBreakpoint b => some
      { level := .debug, message := "leaving dynamic responsive prop untouched"
        fields := [("file", file), ("breakpoint", b.name)] }
    | _ => none
  let asIs : LogEntry :=
    { level := .warn, message := "element has a dynamic className; responsive props left as-is"
      fields := [("file", file)] }
  untouched ++
    if roles.any Role.isStaticBreakpoint && roles.contains .dynamicClassName then [asIs] else []

end BreakpointProps.Rewrite
