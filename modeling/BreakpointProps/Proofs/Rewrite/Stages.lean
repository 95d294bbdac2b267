import Mathlib.Data.List.Perm.Basic
import BreakpointProps.Proofs.Element.Merge
import BreakpointProps.Proofs.Rewrite.Evaluate

/-!
Merging class lists in two stages, once by the rewriter and once while the program runs, against
merging all of them while the program runs. Both leave an element with the same classes.
-/

namespace BreakpointProps

open ClassList (tokens)
open Script

namespace Props

/-- The element has no class list of its own, and no class is in those of its breakpoints. -/
def IsBare (props : Props) : Prop :=
  props.get? "className" = none ∧
    ∀ b : Breakpoint, ∀ classes, props.get? b.name = some (.string classes) → tokens classes.toList = []

theorem string?_eq_some_iff (props : Props) (name classes : String) :
    props.string? name = some classes ↔ props.get? name = some (.string classes) := by
  rw [string?, Option.bind_eq_some_iff]
  constructor
  · rintro ⟨value, hvalue, hstring⟩
    cases value with
    | string s => rw [hvalue, ← Option.some.inj hstring]
    | _ => exact absurd hstring (by simp [PropValue.string?])
  · intro hvalue
    exact ⟨_, hvalue, rfl⟩

/-- Merging adds a class list that is empty to an element where there is neither one nor a class. -/
theorem isBare_iff (props : Props) :
    props.IsBare ↔ props.get? "className" = none ∧ props.responsive.merged = "" := by
  rw [IsBare]
  apply and_congr_right
  intro hnone
  have hclass : props.responsive.className = none := by simp [responsive, string?, hnone]
  rw [ResponsiveProps.merged_eq_empty_iff hclass]
  apply forall_congr'
  intro b
  rw [ResponsiveProps.prefixedTokens_eq_nil_iff]
  apply forall_congr'
  intro classes
  rw [get?_responsive, string?_eq_some_iff]

/-- The names that are merged determine what is merged. -/
theorem responsive_only_isMerged (props : Props) : (props.only isMerged).responsive = props.responsive := by
  have hclass : isMerged "className" = true := by decide
  simp [responsive, string?, get?_only, hclass, isMerged_name]

/-- The classes of a breakpoint come from the one or the other part of the values. -/
theorem prefixedTokens_only (taken : String → Bool) (props : Props) (b : Breakpoint) :
    props.responsive.prefixedTokens b =
      (props.only taken).responsive.prefixedTokens b ++
        (props.only fun name => !taken name).responsive.prefixedTokens b := by
  simp only [ResponsiveProps.prefixedTokens, ClassList.tokensWith, get?_responsive, string?, get?_only]
  cases taken b.name <;> simp

end Props

namespace Rewrite

section Extracted

variable {taken : String → Bool} {props : Props}

theorem get?_className_extracted (hclass : taken "className" = true) :
    (extracted taken props).get? "className" =
      if (props.get? "className").isSome || !(props.only taken).responsive.merged.isEmpty then
        some (.string (props.only taken).responsive.merged)
      else none := by
  have hunwanted : (!taken "className") = false := by rw [hclass, Bool.not_true]
  have hgone := Props.get?_only_of_unwanted (fun name => !taken name) props hunwanted
  rw [Props.get?] at hgone
  simp only [extracted]
  split
  · simp [Props.get?, List.lookup_append, hgone]
  · exact hgone

theorem get?_name_extracted (b : Breakpoint) :
    (extracted taken props).get? b.name = (props.only fun name => !taken name).get? b.name := by
  have hname : (b.name == "className") = false := by cases b <;> decide
  simp only [extracted]
  split
  · simp [Props.get?, List.lookup_append, List.lookup_cons, hname]
  · rfl

/-- The class list after the first stage. -/
theorem string?_className_extracted (hclass : taken "className" = true) :
    ((extracted taken props).string? "className").getD "" = (props.only taken).responsive.merged := by
  rw [Props.string?, get?_className_extracted hclass]
  split
  · rfl
  · rename_i hempty
    simp only [Bool.or_eq_true, not_or, Bool.not_eq_true', Bool.not_eq_false] at hempty
    simpa using hempty.2.symm

/-- The breakpoints after the first stage are those that were not taken. -/
theorem prefixedTokens_extracted (b : Breakpoint) :
    (extracted taken props).responsive.prefixedTokens b =
      (props.only fun name => !taken name).responsive.prefixedTokens b := by
  simp only [ResponsiveProps.prefixedTokens, Props.get?_responsive, Props.string?, get?_name_extracted]

/-- Merging some of the names first and the rest afterwards leaves an element with the same classes as
merging all of them at once. -/
theorem classTokens_folded_extracted (hclass : taken "className" = true) :
    props.folded.classTokens.Perm (extracted taken props).folded.classTokens := by
  have htaken : (props.only taken).responsive.className = props.string? "className" := by
    simp [Props.responsive, Props.string?, Props.get?_only, hclass]
  have hbuilt : (extracted taken props).responsive.className.getD "" =
      (props.only taken).responsive.merged := string?_className_extracted hclass
  have hsplit : Breakpoint.all.flatMap props.responsive.prefixedTokens =
      Breakpoint.all.flatMap fun b =>
        (props.only taken).responsive.prefixedTokens b ++
          (extracted taken props).responsive.prefixedTokens b := by
    congr 1
    funext b
    rw [prefixedTokens_extracted, ← Props.prefixedTokens_only]
  rw [Props.classTokens_folded, Props.classTokens_folded, ResponsiveProps.tokens_merged,
    ResponsiveProps.tokens_merged (extracted taken props).responsive, hbuilt,
    ResponsiveProps.tokens_merged (props.only taken).responsive, htaken, hsplit, List.append_assoc]
  apply List.Perm.append_left
  exact (List.flatMap_append_perm _ _ _).symm

theorem filter_untaken (htaken : ∀ name, taken name = true → Props.isMerged name = true) :
    (props.entries.filter fun entry => !Props.isMerged entry.1 && !taken entry.1) =
      props.entries.filter fun entry => !Props.isMerged entry.1 := by
  congr 1
  funext entry
  have hentry := htaken entry.1
  cases hmerged : Props.isMerged entry.1 <;> cases htook : taken entry.1 <;> simp_all

/-- What is not merged is left alone by the first stage. -/
theorem only_extracted (htaken : ∀ name, taken name = true → Props.isMerged name = true) :
    (extracted taken props).only (fun name => !Props.isMerged name) =
      props.only fun name => !Props.isMerged name := by
  have hclass : Props.isMerged "className" = true := by decide
  simp only [extracted]
  split
  · simp [Props.only, List.filter_append, filter_untaken htaken, hclass]
  · simp [Props.only, filter_untaken htaken]

theorem hasPlainClass_extracted (props : Props) (hclass : taken "className" = true) :
    (extracted taken props).HasPlainClass := by
  intro value hvalue
  rw [get?_className_extracted hclass] at hvalue
  split at hvalue
  · obtain rfl := Option.some.inj hvalue
    rfl
  · exact absurd hvalue (by simp)

/-- If every name that is merged is taken, nothing is left for the second stage. -/
theorem extracted_isMerged (props : Props) :
    (¬ props.IsBare → extracted Props.isMerged props = props.merged) ∧
      (props.IsBare → (extracted Props.isMerged props).get? "className" = none ∧
        props.merged.entries =
          (extracted Props.isMerged props).entries ++ [("className", .string "")]) := by
  have hclass : Props.isMerged "className" = true := by decide
  rw [get?_className_extracted hclass, extracted, Props.responsive_only_isMerged, Props.isBare_iff]
  constructor
  · intro hbare
    rw [if_pos]
    · rfl
    · cases hnone : props.get? "className" with
      | some value => simp
      | none => simpa [hnone] using hbare
  · rintro ⟨hnone, hempty⟩
    simp [hnone, hempty, Props.merged, Props.only]

end Extracted

section Evaluation

variable {given : Node → PropValue} {attributes : List Node} {props : Props}

/-- A breakpoint that has a value on an element with only known class lists makes the rewriter take
the element up. -/
theorem isRewritten_of_isKnown (hknown : IsKnown attributes) {b : Breakpoint} {value : PropValue}
    (hlast : lastValue? given attributes b.name = some value) :
    isRewritten (attributes.map Role.of) = true := by
  obtain ⟨a, ha, hentry⟩ := exists_namedValue?_of_lastValue? hlast
  have hdescribes := describes_of_namedValue? hentry
  have hclass := isClassName_iff_of_describes hdescribes
  rw [isRewritten_iff]
  constructor
  · refine ⟨a, ha, ?_⟩
    cases hrole : Role.of a with
    | staticBreakpoint c classes => rfl
    | dynamicBreakpoint c => exact absurd hrole ((hknown a ha).2 c)
    | dynamicClassName => exact absurd hrole (hknown a ha).1
    | staticClassName classes span =>
        rw [hrole] at hclass
        have hname : b.name = "className" := hclass.mp rfl
        exact absurd hname (by cases b <;> decide)
    | other =>
        rw [hrole] at hdescribes
        have hmerged : Props.isMerged b.name = false := hdescribes
        rw [Props.isMerged_name] at hmerged
        exact absurd hmerged (by decide)
  · intro c hc
    exact (hknown c hc).1

theorem isTaken_of_isKnown (hknown : IsKnown attributes) : isTaken attributes = Props.isMerged := by
  funext name
  rw [isTaken]
  cases hname : Breakpoint.ofName? name with
  | none => simp
  | some b =>
      have hnot : ∀ a ∈ attributes, Role.of a ≠ .dynamicBreakpoint b := by
        intro a ha
        exact (hknown a ha).2 b
      simpa using fun _ => hnot

/-- An element whose class lists are all known gets from the rewriter what it would get from merging
while the program runs, value by value and in the same order. Only where there is no class at all does
merging add an empty class list that the rewriter leaves out. -/
theorem evaluate?_rewriteAttributes_of_isKnown
    (heval : evaluate? given attributes = some props) (hknown : IsKnown attributes)
    (hgiven : ∃ b : Breakpoint, ∃ classes,
      lastValue? given attributes b.name = some (.string classes) ∧ classes ≠ "") :
    ∃ built, evaluate? given (rewriteAttributes attributes) = some built ∧
      (¬ props.IsBare → built = props.merged) ∧
      (props.IsBare → built.get? "className" = none ∧
        props.merged.entries = built.entries ++ [("className", .string "")]) := by
  obtain ⟨b, classes, hlast, _⟩ := hgiven
  have hrewritten := isRewritten_of_isKnown hknown hlast
  refine ⟨extracted Props.isMerged props, ?_, extracted_isMerged props⟩
  rw [evaluate?_rewriteAttributes_of_isRewritten hknown.isUnmixed hrewritten heval,
    isTaken_of_isKnown hknown]

/-- An attribute whose value is a string. -/
def stringAttribute (name value : String) : Node :=
  .mk .attribute .nowhere [.leaf (.name name) .nowhere, .leaf (.string value none) .nowhere]

/-- A link with a class list that stands before the class list of a breakpoint, and with another one
that is given twice. -/
def linkAttributes : List Node :=
  [stringAttribute "md" "p-1", stringAttribute "className" "a", stringAttribute "id" "home",
    stringAttribute "xxl" "b c", stringAttribute "md" " p-2"]

theorem evaluate?_rewriteAttributes_link :
    ∃ props, evaluate? (fun _ => .null) linkAttributes = some props ∧
      evaluate? (fun _ => .null) (rewriteAttributes linkAttributes) = some props.merged := by
  have heval : evaluate? (fun _ => .null) linkAttributes =
      some (.ofList [("md", .string "p-1"), ("className", .string "a"), ("id", .string "home"),
        ("xxl", .string "b c"), ("md", .string " p-2")]) := by rfl
  have hknown : IsKnown linkAttributes := by
    intro a ha
    simp only [linkAttributes, List.mem_cons, List.not_mem_nil, or_false] at ha
    rcases ha with rfl | rfl | rfl | rfl | rfl <;>
      exact ⟨by decide, fun b => by cases b <;> decide⟩
  obtain ⟨built, hbuilt, hmerged, _⟩ := evaluate?_rewriteAttributes_of_isKnown heval hknown
    ⟨.md, " p-2", rfl, by decide⟩
  refine ⟨_, heval, ?_⟩
  rw [hbuilt, hmerged]
  intro hbare
  exact absurd hbare.1 (by rw [get?_of_evaluate? heval]; exact Option.some_ne_none _)

/-- The class list of an element that is rewritten is a string. -/
theorem hasPlainClass_of_isRewritten (heval : evaluate? given attributes = some props)
    (hrewritten : isRewritten (attributes.map Role.of) = true) : props.HasPlainClass := by
  intro value hvalue
  rw [get?_of_evaluate? heval] at hvalue
  obtain ⟨a, ha, hentry⟩ := exists_namedValue?_of_lastValue? hvalue
  have hdescribes := describes_of_namedValue? hentry
  have hclass := (isClassName_iff_of_describes hdescribes).mpr rfl
  cases hrole : Role.of a with
  | staticClassName classes span =>
      rw [hrole] at hdescribes
      rw [hdescribes.2]
      rfl
  | dynamicClassName => exact absurd hrole (((isRewritten_iff attributes).mp hrewritten).2 a ha)
  | _ => rw [hrole] at hclass; exact absurd hclass Bool.false_ne_true

/-- An element that was rewritten and then folded while the program runs has the same classes as one
that was only folded, the same class list if that is no string, and otherwise the same values in the
same order. -/
theorem folded_rewriteAttributes (heval : evaluate? given attributes = some props)
    (hunmixed : IsUnmixed attributes) :
    ∃ built, evaluate? given (rewriteAttributes attributes) = some built ∧
      props.folded.classTokens.Perm built.folded.classTokens ∧
      (∀ value, value.string? = none →
        (props.folded.get? "className" = some value ↔ built.folded.get? "className" = some value)) ∧
      props.folded.only (fun name => !Props.isMerged name) =
        built.folded.only fun name => !Props.isMerged name := by
  cases hrewritten : isRewritten (attributes.map Role.of) with
  | false =>
      have hsame := rewriteAttributes_of_settled ((isRewritten_eq_false_iff attributes).mp hrewritten)
      rw [hsame]
      exact ⟨props, heval, List.Perm.refl _, fun _ _ => Iff.rfl, rfl⟩
  | true =>
      have hclass := isTaken_className attributes
      have htaken : ∀ name, isTaken attributes name = true → Props.isMerged name = true := by
        intro name hname
        rw [isTaken, Bool.and_eq_true] at hname
        exact hname.1
      have hplain := Props.hasPlainClass_folded (hasPlainClass_of_isRewritten heval hrewritten)
      have hbuilt := Props.hasPlainClass_folded (hasPlainClass_extracted props hclass)
      refine ⟨_, evaluate?_rewriteAttributes_of_isRewritten hunmixed hrewritten heval,
        classTokens_folded_extracted hclass, ?_, ?_⟩
      · intro value hstring
        constructor
        · intro hvalue
          have hsome := hplain value hvalue
          simp [hstring] at hsome
        · intro hvalue
          have hsome := hbuilt value hvalue
          simp [hstring] at hsome
      · rw [Props.only_folded, Props.only_folded, only_extracted htaken]

/-- An attribute whose value is not known before the program runs. -/
def dynamicAttribute (name source : String) : Node :=
  .mk .attribute .nowhere
    [.leaf (.name name) .nowhere, .mk .container .nowhere [.leaf (.identifier source) .nowhere]]

/-- A card of which one breakpoint is known and the one below it is not. -/
def cardAttributes : List Node :=
  [stringAttribute "className" "a", dynamicAttribute "sm" "narrow", stringAttribute "lg" "b c"]

theorem folded_rewriteAttributes_card :
    ∃ props built, evaluate? (fun _ => .string "d") cardAttributes = some props ∧
      evaluate? (fun _ => .string "d") (rewriteAttributes cardAttributes) = some built ∧
      props.folded.classTokens.Perm built.folded.classTokens := by
  have heval : evaluate? (fun _ => .string "d") cardAttributes =
      some (.ofList [("className", .string "a"), ("sm", .string "d"), ("lg", .string "b c")]) := by
    rfl
  have hunmixed : IsUnmixed cardAttributes := by
    intro a ha c hc b classes hstatic hdynamic
    have hroles : cardAttributes.map Role.of =
        [.staticClassName "a" .nowhere, .dynamicBreakpoint .sm, .staticBreakpoint .lg "b c"] := by
      decide
    have hknown := List.mem_map_of_mem (f := Role.of) ha
    have hunknown := List.mem_map_of_mem (f := Role.of) hc
    rw [hroles, hstatic] at hknown
    rw [hroles, hdynamic] at hunknown
    have hlg : b = .lg ∧ classes = "b c" := by simpa using hknown
    have hsm : b = .sm := by simpa using hunknown
    rw [hlg.1] at hsm
    exact absurd hsm (by decide)
  obtain ⟨built, hbuilt, hperm, _⟩ := folded_rewriteAttributes heval hunmixed
  exact ⟨_, built, heval, hbuilt, hperm⟩

end Evaluation

end Rewrite

end BreakpointProps
