import BreakpointProps.Breakpoint

/-!
The class list of an element together with the class lists of its breakpoints, and how they are
merged into one. A class list is a text in which spaces keep the classes apart.
-/

namespace BreakpointProps

namespace ClassList

/-- The classes of a list: its longest runs of characters other than the space. -/
def tokens : List Char → List (List Char)
  | [] => []
  | c :: cs =>
    if c = ' ' then tokens cs
    else match cs, tokens cs with
      | d :: _, token :: rest => if d = ' ' then [c] :: token :: rest else (c :: token) :: rest
      | _, rest => [c] :: rest

/-- The classes with one space between each two. -/
def joined : List (List Char) → List Char
  | [] => []
  | [token] => token
  | token :: rest => token ++ ' ' :: joined rest

def tokensWith (variant : List Char) (value : List Char) : List (List Char) :=
  (tokens value).map (variant ++ ·)

end ClassList

/-- A class list, and one more for each breakpoint. -/
structure ResponsiveProps where
  className : Option String := none
  sm : Option String := none
  md : Option String := none
  lg : Option String := none
  xl : Option String := none
  xxl : Option String := none
  deriving DecidableEq, Repr, Inhabited

namespace ResponsiveProps

def get? (props : ResponsiveProps) : Breakpoint → Option String
  | .sm => props.sm
  | .md => props.md
  | .lg => props.lg
  | .xl => props.xl
  | .xxl => props.xxl

/-- Give a breakpoint a class list. -/
def set (props : ResponsiveProps) (b : Breakpoint) (classes : String) : ResponsiveProps :=
  match b with
  | .sm => { props with sm := some classes }
  | .md => { props with md := some classes }
  | .lg => { props with lg := some classes }
  | .xl => { props with xl := some classes }
  | .xxl => { props with xxl := some classes }

/-- Give the element its class list. -/
def withClassName (props : ResponsiveProps) (classes : String) : ResponsiveProps :=
  { props with className := some classes }

/-- Has some breakpoint a class list, if only an empty one? -/
def hasBreakpoints (props : ResponsiveProps) : Bool :=
  Breakpoint.all.any fun b => (props.get? b).isSome

/-- The classes of a breakpoint, each behind the variant of the breakpoint. -/
def prefixedTokens (props : ResponsiveProps) (b : Breakpoint) : List (List Char) :=
  ClassList.tokensWith b.variant.toList ((props.get? b).getD "").toList

/-- What the merged list is joined from: the class list of the element as it is, and the classes of
the breakpoints from the narrowest to the widest. -/
def pieces (props : ResponsiveProps) : List (List Char) :=
  [(props.className.getD "").toList].filter (!·.isEmpty) ++ Breakpoint.all.flatMap props.prefixedTokens

/-- One class list with all classes. -/
def merged (props : ResponsiveProps) : String := String.ofList (ClassList.joined props.pieces)

@[simp] theorem get?_set_self (props : ResponsiveProps) (b : Breakpoint) (classes : String) :
    (props.set b classes).get? b = some classes := by cases b <;> rfl

theorem get?_set_of_ne (props : ResponsiveProps) {b c : Breakpoint} (h : c ≠ b) (classes : String) :
    (props.set b classes).get? c = props.get? c := by
  cases b <;> cases c <;> first | rfl | exact absurd rfl h

@[simp] theorem className_set (props : ResponsiveProps) (b : Breakpoint) (classes : String) :
    (props.set b classes).className = props.className := by cases b <;> rfl

@[simp] theorem get?_withClassName (props : ResponsiveProps) (b : Breakpoint) (classes : String) :
    (props.withClassName classes).get? b = props.get? b := by cases b <;> rfl

end ResponsiveProps

end BreakpointProps
