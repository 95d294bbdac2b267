import Mathlib.Logic.Function.Iterate
import BreakpointProps.Element.Factory
import BreakpointProps.Proofs.Element.MergeInTurn

/-!
Factories behind any number of folds. The fold that is met first merges, those behind it find nothing to
merge and pass on what they are handed, so the folds act as one and the factory is called once.
-/

namespace BreakpointProps

namespace PropValue

/-- The values that count as false. -/
inductive IsFalsy : PropValue → Prop where
  | null : IsFalsy .null
  | no : IsFalsy (.bool false)
  /-- Both zeros are equal to this one. -/
  | zero (x : Float) : (x == 0.0) = true → IsFalsy (.number x)
  | notANumber (x : Float) : x.isNaN = true → IsFalsy (.number x)
  | empty : IsFalsy (.string "")

theorem isTruthy_eq_false_iff (value : PropValue) : value.isTruthy = false ↔ value.IsFalsy := by
  constructor
  · intro hfalse
    cases value with
    | null => exact .null
    | bool b =>
        obtain rfl : b = false := hfalse
        exact .no
    | number x =>
        simp only [isTruthy, bne, Bool.and_eq_false_iff, Bool.not_eq_false'] at hfalse
        rcases hfalse with hzero | hnan
        · exact .zero x hzero
        · exact .notANumber x hnan
    | string s =>
        obtain rfl : s = "" := by simpa [isTruthy] using hfalse
        exact .empty
    | json _ => exact absurd hfalse (by simp [isTruthy])
  · intro hfalsy
    cases hfalsy with
    | zero x hzero => rw [isTruthy, bne, hzero, Bool.not_true, Bool.false_and]
    | notANumber x hnan => rw [isTruthy, hnan, Bool.not_true, Bool.and_false]
    | _ => rfl

end PropValue

namespace Props

/-- A breakpoint is given if some breakpoint has a value that does not count as false. -/
theorem hasBreakpoint_iff (props : Props) :
    props.hasBreakpoint = true ↔
      ∃ b : Breakpoint, ∃ value, props.get? b.name = some value ∧ ¬ value.IsFalsy := by
  simp [hasBreakpoint, Option.any_eq_true, ← PropValue.isTruthy_eq_false_iff]

/-- What was folded has nothing left to fold. -/
theorem folded_folded (props : Props) : props.folded.folded = props.folded := by
  cases hbreakpoint : props.hasBreakpoint with
  | true => simp [folded, hbreakpoint, hasBreakpoint_merged]
  | false => simp [folded, hbreakpoint]

end Props

namespace Factory

section Folding

variable {α : Type}

/-- Making something behind a fold. What is made may be an element, or an element and what making it
does besides. -/
def folding (make : String → Option Props → List Child → α) : String → Option Props → List Child → α :=
  fun kind props children => make kind (props.map Props.folded) children

theorem make_behindFold (factory : Factory) (identity : Identity) (inForce : Making) :
    (factory.behindFold identity).make inForce = folding (factory.make inForce) := rfl

/-- Behind two folds the inner one finds what was folded already. -/
theorem folding_folding (make : String → Option Props → List Child → α) :
    folding (folding make) = folding make := by
  funext kind props children
  cases props with
  | none => rfl
  | some props => simp only [folding, Option.map_some, Props.folded_folded]

/-- Any number of folds act as one, if there is one. -/
theorem iterate_folding (n : Nat) (make : String → Option Props → List Child → α) :
    folding^[n + 1] make = folding make := by
  induction n with
  | zero => rfl
  | succ n ih => rw [Function.iterate_succ_apply', ih, folding_folding]

/-- A factory behind folds, the one that is met first coming first. -/
def stacked (factory : Factory) (identities : List Identity) : Factory :=
  identities.foldr (fun identity inner => inner.behindFold identity) factory

theorem make_stacked (factory : Factory) (identities : List Identity) (inForce : Making) :
    (factory.stacked identities).make inForce = folding^[identities.length] (factory.make inForce) := by
  induction identities with
  | nil => rfl
  | cons identity rest ih =>
      rw [List.length_cons, Function.iterate_succ_apply', ← ih]
      exact make_behindFold (factory.stacked rest) identity inForce

end Folding

section Calls

/-- A call of a factory. -/
structure Call where
  kind : String
  props : Option Props
  children : List Child

variable {σ : Type}

/-- The same factory with its calls noted down. It may keep a state of its own. -/
def noted (make : String → Option Props → List Child → StateM σ Element) :
    String → Option Props → List Child → StateM (σ × List Call) Element :=
  fun kind props children (state, calls) =>
    let (element, state) := (make kind props children).run state
    (element, state, calls ++ [⟨kind, props, children⟩])

/-- What the factory behind a fold is handed for the values that come in front of it. -/
inductive Receives : Option Props → Option Props → Prop where
  | absent : Receives none none
  | untouched (props : Props) :
    (∀ b : Breakpoint, ∀ value, props.get? b.name = some value → value.IsFalsy) →
    Receives (some props) (some props)
  | merged (props : Props) (b : Breakpoint) (value : PropValue) :
    props.get? b.name = some value → ¬ value.IsFalsy → Receives (some props) (some props.merged)

theorem receives_folded (props : Option Props) : Receives props (props.map Props.folded) := by
  cases props with
  | none => exact .absent
  | some props =>
      rw [Option.map_some, Props.folded]
      split
      · rename_i hbreakpoint
        obtain ⟨b, value, hvalue, htruthy⟩ := props.hasBreakpoint_iff.mp hbreakpoint
        exact .merged props b value hvalue htruthy
      · rename_i hnone
        rw [Props.hasBreakpoint_iff] at hnone
        refine .untouched props fun b value hvalue => ?_
        by_contra htruthy
        exact hnone ⟨b, value, hvalue, htruthy⟩

/-- A factory behind any number of folds makes what it makes behind one: in both cases it is called
once, with the kind and the children of the call and with what is received behind a fold. This is also so for a
factory that keeps a state, for which one call more or less would make a difference. -/
theorem calls_stacked (factory : Factory) (single outermost : Identity) (others : List Identity)
    (inForce : Making) (kind : String) (props : Option Props) (children : List Child) :
    ∃ received, Receives props received ∧
      (factory.behindFold single).make inForce kind props children =
        factory.make inForce kind received children ∧
      (factory.stacked (outermost :: others)).make inForce kind props children =
        factory.make inForce kind received children ∧
      (factory.stacked (outermost :: others)).make inForce =
        folding^[others.length + 1] (factory.make inForce) ∧
      ∀ (σ : Type) (make : String → Option Props → List Child → StateM σ Element) (state : σ)
        (calls : List Call),
        let once := (make kind received children).run state
        let outcome := (once.1, once.2, calls ++ [⟨kind, received, children⟩])
        (folding (noted make) kind props children).run (state, calls) = outcome ∧
          (folding^[others.length + 1] (noted make) kind props children).run (state, calls) = outcome := by
  have hstack := factory.make_stacked (outermost :: others) inForce
  rw [List.length_cons] at hstack
  refine ⟨props.map Props.folded, receives_folded props, rfl, ?_, hstack, ?_⟩
  · rw [hstack, iterate_folding]
    rfl
  · intro σ make state calls once outcome
    rw [iterate_folding]
    exact ⟨rfl, rfl⟩

end Calls

end Factory

end BreakpointProps
