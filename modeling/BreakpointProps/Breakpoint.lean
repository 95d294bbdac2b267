/-!
The five breakpoints. Their names are reserved on every element; none can be renamed or added.
-/

namespace BreakpointProps

/-- A width of the screen from which on a class applies. -/
inductive Breakpoint where
  /-- 640 pixels and above. -/
  | sm
  /-- 768 pixels and above. -/
  | md
  /-- 1024 pixels and above. -/
  | lg
  /-- 1280 pixels and above. -/
  | xl
  /-- 1536 pixels and above. -/
  | xxl
  deriving DecidableEq, Repr, Inhabited

namespace Breakpoint

/-- Every breakpoint, from the narrowest to the widest. -/
def all : List Breakpoint := [sm, md, lg, xl, xxl]

/-- The name of the attribute that holds the classes of the breakpoint. -/
def name : Breakpoint → String
  | sm => "sm"
  | md => "md"
  | lg => "lg"
  | xl => "xl"
  | xxl => "xxl"

/-- What stands in front of a class that applies from the breakpoint on. Only the widest one does not
use its own name. -/
def variant : Breakpoint → String
  | sm => "sm:"
  | md => "md:"
  | lg => "lg:"
  | xl => "xl:"
  | xxl => "2xl:"

def ofName? (name : String) : Option Breakpoint := all.find? fun b => b.name == name

def index : Breakpoint → Nat
  | sm => 0
  | md => 1
  | lg => 2
  | xl => 3
  | xxl => 4

/-- Every breakpoint is listed. -/
@[simp] theorem mem_all (b : Breakpoint) : b ∈ all := by cases b <;> decide

/-- A breakpoint is found by its name. -/
@[simp] theorem ofName?_name (b : Breakpoint) : ofName? b.name = some b := by cases b <;> decide

/-- Only its own name finds a breakpoint. -/
theorem name_of_ofName? {name : String} {b : Breakpoint} (h : ofName? name = some b) :
    b.name = name := by
  have := List.find?_some h
  simpa using this

/-- No two breakpoints have one name. -/
theorem name_inj {b c : Breakpoint} : b.name = c.name ↔ b = c := by
  constructor
  · intro hname
    have hfound := congrArg ofName? hname
    rwa [ofName?_name, ofName?_name, Option.some.injEq] at hfound
  · rintro rfl
    rfl

end Breakpoint

end BreakpointProps
