import BreakpointProps.Proofs.ClassList
import BreakpointProps.Proofs.Element.Props

/-!
Merging and folding the values of an element: which classes it has then, and what else it has.
-/

namespace BreakpointProps

open ClassList (tokens)

namespace ResponsiveProps

theorem prefixedTokens_eq_nil_iff (props : ResponsiveProps) (b : Breakpoint) :
    props.prefixedTokens b = [] ↔ ∀ classes, props.get? b = some classes → tokens classes.toList = [] := by
  rw [prefixedTokens, ClassList.tokensWith, List.map_eq_nil_iff]
  cases props.get? b <;> simp

/-- Without a class list of the element the merged list is empty if no breakpoint has a class. -/
theorem merged_eq_empty_iff {props : ResponsiveProps} (hnone : props.className = none) :
    props.merged = "" ↔ ∀ b, props.prefixedTokens b = [] := by
  constructor
  · intro hempty b
    have htokens := props.tokens_merged
    rw [hempty, hnone] at htokens
    have hall : Breakpoint.all.flatMap props.prefixedTokens = [] := by simpa using htokens.symm
    exact List.flatMap_eq_nil_iff.mp hall b (Breakpoint.mem_all b)
  · intro hall
    have hpieces : props.pieces = [] := by simp [pieces, hnone, hall]
    rw [merged, hpieces]
    rfl

end ResponsiveProps

namespace Props

/-- The classes of an element. A class list that is no string holds none. -/
def classTokens (props : Props) : List (List Char) :=
  tokens ((props.string? "className").getD "").toList

/-- The class list is a string, if there is one. -/
def HasPlainClass (props : Props) : Prop :=
  ∀ value, props.get? "className" = some value → (value.string?).isSome

@[simp] theorem get?_responsive (props : Props) (b : Breakpoint) :
    props.responsive.get? b = props.string? b.name := by cases b <;> rfl

@[simp] theorem get?_className_merged (props : Props) :
    props.merged.get? "className" = some (.string props.responsive.merged) := by
  have hunwanted : (!isMerged "className") = false := by decide
  have hgone := get?_only_of_unwanted (fun name => !isMerged name) props hunwanted
  rw [merged, get?, List.lookup_append]
  rw [get?, only] at hgone
  simp [hgone]

/-- The values with other names are as they were before merging. -/
@[simp] theorem only_merged (props : Props) :
    props.merged.only (fun name => !isMerged name) = props.only fun name => !isMerged name := by
  simp [merged, only, List.filter_filter, isMerged]

/-- The values with other names are as they were before folding. -/
@[simp] theorem only_folded (props : Props) :
    props.folded.only (fun name => !isMerged name) = props.only fun name => !isMerged name := by
  rw [folded]
  split
  · exact props.only_merged
  · rfl

/-- A breakpoint whose value counts as false adds no class. -/
theorem prefixedTokens_of_not_hasBreakpoint {props : Props} (hnone : props.hasBreakpoint = false)
    (b : Breakpoint) : props.responsive.prefixedTokens b = [] := by
  rw [ResponsiveProps.prefixedTokens_eq_nil_iff]
  intro classes hclasses
  rw [get?_responsive, string?, Option.bind_eq_some_iff] at hclasses
  obtain ⟨value, hvalue, hstring⟩ := hclasses
  rw [hasBreakpoint, List.any_eq_false] at hnone
  have hfalsy := hnone b (Breakpoint.mem_all b)
  cases value with
  | string s =>
      obtain rfl := Option.some.inj hstring
      have hempty : s = "" := by simpa [hvalue, PropValue.isTruthy] using hfalsy
      rw [hempty]
      rfl
  | _ => exact absurd hstring (by simp [PropValue.string?])

/-- Folding leaves an element with the classes that merging gives it, whether it merges or not. -/
theorem classTokens_folded (props : Props) :
    props.folded.classTokens = tokens props.responsive.merged.toList := by
  cases hbreakpoint : props.hasBreakpoint with
  | true => simp [folded, hbreakpoint, classTokens, string?, PropValue.string?]
  | false =>
      have hnone : Breakpoint.all.flatMap props.responsive.prefixedTokens = [] := by
        rw [List.flatMap_eq_nil_iff]
        intro b _
        exact prefixedTokens_of_not_hasBreakpoint hbreakpoint b
      rw [ResponsiveProps.tokens_merged, hnone, List.append_nil]
      simp only [folded, hbreakpoint, Bool.false_eq_true, ↓reduceIte]
      rfl

theorem hasPlainClass_folded {props : Props} (hplain : props.HasPlainClass) :
    props.folded.HasPlainClass := by
  rw [folded]
  split
  · intro value hvalue
    rw [get?_className_merged] at hvalue
    obtain rfl := Option.some.inj hvalue
    rfl
  · exact hplain

end Props

end BreakpointProps
