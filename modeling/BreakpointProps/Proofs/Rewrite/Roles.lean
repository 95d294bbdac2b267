import BreakpointProps.Rewrite.Element

/-!
What the attributes of an element are to the rewriter, before and after the element is rewritten.
A rewritten element has no breakpoint left whose class list is known, so rewriting it again finds
nothing to do.
-/

namespace BreakpointProps.Rewrite

open Script

/-- A known class list of a breakpoint stands on an element only beside a class list of the element
that is not known. -/
def IsSettled (attributes : List Node) : Prop :=
  (∃ a ∈ attributes, (Role.of a).isStaticBreakpoint) →
    ∃ a ∈ attributes, Role.of a = .dynamicClassName

theorem isRewritten_iff (attributes : List Node) :
    isRewritten (attributes.map Role.of) = true ↔
      (∃ a ∈ attributes, (Role.of a).isStaticBreakpoint) ∧
        ∀ a ∈ attributes, Role.of a ≠ .dynamicClassName := by
  simp [isRewritten]

/-- The elements that are left as they are are exactly the settled ones. -/
theorem isRewritten_eq_false_iff (attributes : List Node) :
    isRewritten (attributes.map Role.of) = false ↔ IsSettled attributes := by
  rw [← Bool.not_eq_true, isRewritten_iff, not_and]
  simp [IsSettled]

/-- The attribute that is made for a class list is read as one whose class list is known. -/
@[simp] theorem role_classNameNode (value : String) (span : Span) :
    Role.of (classNameNode value span) = .staticClassName value span := by
  by_cases hcontainer : needsContainer value <;>
    simp [classNameNode, Node.leaf, Role.of, staticValue?, staticText?, hcontainer]

theorem not_isStaticBreakpoint_of_isKept {role : Role} (hkept : role.isKept) :
    ¬ role.isStaticBreakpoint := by
  cases role <;> simp_all [Role.isKept, Role.isStaticBreakpoint]

/-- What stands on a rewritten element stood there before, except for the new class list. -/
theorem mem_rewriteAttributes {attributes : List Node} {a : Node}
    (ha : a ∈ rewriteAttributes attributes) :
    a ∈ attributes ∨ ∃ value span, a = classNameNode value span := by
  simp only [rewriteAttributes] at ha
  split at ha
  · split at ha
    · rcases List.mem_append.mp ha with hkept | hnew
      · exact Or.inl ((List.mem_filter.mp hkept).1)
      · exact Or.inr ⟨_, _, List.mem_singleton.mp hnew⟩
    · exact Or.inl ((List.mem_filter.mp ha).1)
  · exact Or.inl ha

/-- No known class list of a breakpoint stands on an element that was rewritten. -/
theorem not_isStaticBreakpoint_of_mem_rewriteAttributes {attributes : List Node}
    (hrewritten : isRewritten (attributes.map Role.of) = true) {a : Node}
    (ha : a ∈ rewriteAttributes attributes) : ¬ (Role.of a).isStaticBreakpoint := by
  have hkept : ∀ b ∈ attributes.filter (fun b => (Role.of b).isKept),
      ¬ (Role.of b).isStaticBreakpoint := by
    intro b hb
    exact not_isStaticBreakpoint_of_isKept (List.mem_filter.mp hb).2
  simp only [rewriteAttributes, hrewritten, ↓reduceIte] at ha
  split at ha
  · rcases List.mem_append.mp ha with hold | hnew
    · exact hkept a hold
    · rw [List.mem_singleton.mp hnew, role_classNameNode]
      simp [Role.isStaticBreakpoint]
  · exact hkept a ha

theorem rewriteAttributes_of_settled {attributes : List Node} (hsettled : IsSettled attributes) :
    rewriteAttributes attributes = attributes := by
  have hleft := (isRewritten_eq_false_iff attributes).mpr hsettled
  simp [rewriteAttributes, hleft]

/-- An element is settled once it was rewritten. -/
theorem isSettled_rewriteAttributes (attributes : List Node) :
    IsSettled (rewriteAttributes attributes) := by
  cases hrewritten : isRewritten (attributes.map Role.of) with
  | true =>
      rintro ⟨a, ha, hstatic⟩
      exact absurd hstatic (not_isStaticBreakpoint_of_mem_rewriteAttributes hrewritten ha)
  | false =>
      have hsettled := (isRewritten_eq_false_iff attributes).mp hrewritten
      rwa [rewriteAttributes_of_settled hsettled]

end BreakpointProps.Rewrite
