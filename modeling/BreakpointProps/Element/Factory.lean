import BreakpointProps.Element.Merge

/-!
Factories, which make elements. A factory may be put behind a fold, which merges the breakpoints
before the factory sees them.
-/

namespace BreakpointProps

/-- A way to make an element of a kind from values and children. -/
abbrev Making := String → Option Props → List Child → Element

/-- What tells factories apart: two with the same behaviour may be different factories. -/
inductive Factory.Identity where
  | given (n : Nat)
  /-- The fold that was put in place by the patch of a generation. -/
  | patch (generation : Nat)
  deriving DecidableEq, Repr, Inhabited

/-- A factory. It may have further elements made in the way that is in force when it is called. -/
structure Factory where
  identity : Factory.Identity
  make : Making → Making

namespace Factory

/-- The element that consists of what it is made from. -/
def plain : Making := fun kind props children => .mk kind (props.getD {}) children

instance : Inhabited Factory := ⟨⟨.given 0, fun _ => plain⟩⟩

/-- The factory that makes elements as they are described. -/
def standard (n : Nat) : Factory := ⟨.given n, fun _ => plain⟩

def behindFold (factory : Factory) (identity : Identity) : Factory where
  identity
  make inForce kind props children := factory.make inForce kind (props.map Props.folded) children

def sameAs (factory other : Factory) : Bool := factory.identity == other.identity

end Factory

end BreakpointProps
