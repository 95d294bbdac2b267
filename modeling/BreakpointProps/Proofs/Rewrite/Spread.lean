import Mathlib.Data.List.Perm.Subperm
import BreakpointProps.Proofs.Rewrite.Attributes
import BreakpointProps.Proofs.Rewrite.Stages

/-!
Rewriting an element whose attributes spread objects. The class list that is written stands behind all of
them, so a class list that comes out of an object gives way to it.
-/

namespace BreakpointProps.Rewrite

open Script
open ClassList (tokens)

section Spread

variable (given : Node → PropValue) (object : Node → Props)

/-- The values that an attribute gives: one under its own name or, without a name, those of an object. -/
def gives (a : Node) : List (String × PropValue) :=
  match namedValue? given a with
  | some entry => [entry]
  | none => (object a).entries

/-- What an element has after its attributes gave their values one after the other. -/
def spreadOut (attributes : List Node) : Props := .ofList (attributes.flatMap (gives given object))

/-- Does the class list of the element outlast the rewriter? It does if the element is left as it is, if no
class list is written to it, or if the one that is known has the classes that the element comes to. -/
def KeepsClassList (attributes : List Node) : Prop :=
  IsSettled attributes ∨
    (∀ a ∈ rewriteAttributes attributes, namesClass a = false) ∨
    (spreadOut given object attributes).classTokens.Perm
      (tokens ((lastText? attributes "className").getD "").toList)

/-- Does a class list of the element stand behind each object that has one? -/
def ClassListComesLast (attributes : List Node) : Prop :=
  ∀ before a after, attributes = before ++ a :: after → attributeName? a = none →
    (object a).get? "className" ≠ none → ∃ c ∈ after, namesClass c = true

end Spread

section Last

variable {given : Node → PropValue} {object : Node → Props}

theorem get?_spreadOut_append (front behind : List Node) (name : String) :
    (spreadOut given object (front ++ behind)).get? name =
      ((spreadOut given object behind).get? name).or ((spreadOut given object front).get? name) := by
  simp only [spreadOut, Props.get?_ofList, List.flatMap_append, List.reverse_append, List.lookup_append]

theorem lastText?_append (front behind : List Node) (name : String) :
    lastText? (front ++ behind) name = (lastText? behind name).or (lastText? front name) := by
  simp only [lastText?, List.filterMap_append, List.reverse_append, List.lookup_append]

theorem get?_spreadOut_of_namedValue? {a : Node} {entry : String × PropValue}
    (hentry : namedValue? given a = some entry) (name : String) :
    (spreadOut given object [a]).get? name = if name = entry.1 then some entry.2 else none := by
  obtain ⟨other, value⟩ := entry
  by_cases hname : name = other
  · simp [spreadOut, gives, hentry, Props.get?_ofList, hname]
  · simp [spreadOut, gives, hentry, Props.get?_ofList, hname, List.lookup_cons, beq_false_of_ne hname]

theorem lastText?_singleton (a : Node) (name : String) :
    lastText? [a] name = (knownPair? a).bind fun entry => if name == entry.1 then some entry.2 else none := by
  have hlast := lookup_filterMap_concat knownPair? [] a name
  rwa [List.nil_append, List.filterMap_nil, List.reverse_nil, List.lookup_nil, Option.or_none] at hlast

/-- An attribute gives the text that it is known to have. -/
theorem namedValue?_of_knownPair? {a : Node} {name text : String}
    (hentry : knownPair? a = some (name, text)) : namedValue? given a = some (name, .string text) := by
  obtain ⟨hname, htext⟩ := knownPair?_eq_some_iff.mp hentry
  unfold knownText? at htext
  split at htext
  · rw [namedValue?, hname, Option.map_some, attributeValue, htext]
  · cases htext

/-- An attribute that stays tells no slot, and one that goes gives the slot what it tells. -/
theorem slot_singleton (given : Node → PropValue) (object : Node → Props) {a : Node}
    (hclass : Role.of a ≠ .dynamicClassName) (slot : Option Breakpoint) :
    ((Role.of a).isKept = true → lastText? [a] (slotName slot) = none) ∧
      ((Role.of a).isKept = false → (spreadOut given object [a]).get? (slotName slot) =
        (lastText? [a] (slotName slot)).map .string) := by
  constructor
  · intro hkept
    rw [lastText?_singleton, Option.bind_eq_none_iff]
    intro entry hentry
    obtain ⟨name, text⟩ := entry
    rw [if_neg]
    intro hname
    obtain rfl := beq_iff_eq.mp hname
    have hfilled := (filled?_role_eq_some_iff _ _ _).mpr hentry
    cases hrole : Role.of a <;> rw [hrole] at hfilled hkept
    case staticBreakpoint => exact absurd hkept Bool.false_ne_true
    case staticClassName => exact absurd hkept Bool.false_ne_true
    all_goals cases hfilled
  · intro hgone
    have hfilled : ∃ filled, (Role.of a).filled? = some filled := by
      cases hrole : Role.of a <;> rw [hrole] at hgone
      case staticBreakpoint b classes => exact ⟨_, rfl⟩
      case staticClassName classes span => exact ⟨_, rfl⟩
      case dynamicClassName => exact absurd hrole hclass
      all_goals exact absurd hgone.symm Bool.false_ne_true
    obtain ⟨⟨other, text⟩, hother⟩ := hfilled
    have hentry := (filled?_role_eq_some_iff _ _ _).mp hother
    rw [lastText?_singleton, hentry, get?_spreadOut_of_namedValue? (namedValue?_of_knownPair? hentry)]
    by_cases hname : slotName slot = slotName other
    · simp [hname]
    · simp [hname]

/-- A value is one of two, and the one of them that there is if the other is missing. -/
structure IsEither {α : Type} (value left right : Option α) : Prop where
  one : value = left ∨ value = right
  of_left : left = none → value = right
  of_right : right = none → value = left

theorem IsEither.or {α : Type} {value left right next : Option α} (heither : IsEither value left right) :
    IsEither (value.or next) (left.or next) right ∧ IsEither (value.or next) left (right.or next) := by
  obtain ⟨hone, hleft, hright⟩ := heither
  cases value with
  | none =>
      have hnone : left = none ∧ right = none := by
        rcases hone with hl | hr
        · exact ⟨hl.symm, (hleft hl.symm).symm⟩
        · exact ⟨(hright hr.symm).symm, hr.symm⟩
      obtain ⟨rfl, rfl⟩ := hnone
      exact ⟨⟨Or.inl rfl, id, fun _ => rfl⟩, ⟨Or.inr rfl, fun _ => rfl, id⟩⟩
  | some v =>
      have hfirst : (some v).or next = some v := rfl
      rw [hfirst]
      constructor
      · cases left with
        | none => exact ⟨Or.inr (hleft rfl), fun _ => hleft rfl, fun hnone => absurd (hleft rfl) (by simp [hnone])⟩
        | some l => exact ⟨hone, nofun, hright⟩
      · cases right with
        | none => exact ⟨Or.inl (hright rfl), fun hnone => absurd (hright rfl) (by simp [hnone]), fun _ => hright rfl⟩
        | some r => exact ⟨hone, hleft, nofun⟩

/-- What a slot comes to is told by the attributes that go, or is given by those that stay. -/
theorem isEither_slot (given : Node → PropValue) (object : Node → Props) {attributes : List Node}
    (hclass : ∀ a ∈ attributes, Role.of a ≠ .dynamicClassName) (slot : Option Breakpoint) :
    IsEither ((spreadOut given object attributes).get? (slotName slot))
      ((lastText? attributes (slotName slot)).map .string)
      ((spreadOut given object (attributes.filter fun a => (Role.of a).isKept)).get? (slotName slot)) := by
  -- What stands in front has a say only where the rest has none, so it joins one of the two sides.
  induction attributes with
  | nil => exact ⟨Or.inl rfl, fun _ => rfl, fun _ => rfl⟩
  | cons a rest ih =>
      have hrest := ih fun c hc => hclass c (List.mem_cons_of_mem a hc)
      obtain ⟨hstays, hgoes⟩ :=
        slot_singleton given object (hclass a List.mem_cons_self) slot
      rw [← List.singleton_append, get?_spreadOut_append, lastText?_append, List.filter_append]
      cases hkept : (Role.of a).isKept with
      | true =>
          have hstay : [a].filter (fun a => (Role.of a).isKept) = [a] := by simp [hkept]
          rw [hstays hkept, Option.or_none, hstay, get?_spreadOut_append]
          exact hrest.or.2
      | false =>
          have hgone : [a].filter (fun a => (Role.of a).isKept) = [] := by simp [hkept]
          rw [hgoes hkept, Option.map_or, hgone, List.nil_append]
          exact hrest.or.1

end Last

section Classes

variable {given : Node → PropValue} {object : Node → Props} {attributes : List Node}

/-- The classes that a breakpoint has from a value. -/
def classesOf (b : Breakpoint) (value : Option PropValue) : List (List Char) :=
  ClassList.tokensWith b.variant.toList ((value.bind PropValue.string?).getD "").toList

@[simp] theorem classesOf_none (b : Breakpoint) : classesOf b none = [] := by
  simp [classesOf, ClassList.tokensWith]

theorem prefixedTokens_responsive (props : Props) (b : Breakpoint) :
    props.responsive.prefixedTokens b = classesOf b (props.get? b.name) := by
  rw [ResponsiveProps.prefixedTokens, Props.get?_responsive]
  rfl

theorem prefixedTokens_knownProps (attributes : List Node) (b : Breakpoint) :
    (knownProps attributes).prefixedTokens b = classesOf b ((lastText? attributes b.name).map .string) := by
  have hslot : (knownProps attributes).get? b = lastText? attributes b.name := slot_knownProps attributes (some b)
  rw [ResponsiveProps.prefixedTokens, hslot, classesOf]
  cases lastText? attributes b.name <;> rfl

theorem IsEither.subperm_classesOf {value left right : Option PropValue} (heither : IsEither value left right)
    (b : Breakpoint) : (classesOf b value).Subperm (classesOf b left ++ classesOf b right) := by
  rcases heither.one with rfl | rfl
  · exact (List.sublist_append_left _ _).subperm
  · exact (List.sublist_append_right _ _).subperm

theorem subperm_flatMap {α β : Type} {f g : α → List β} (heach : ∀ x, (f x).Subperm (g x)) (l : List α) :
    (l.flatMap f).Subperm (l.flatMap g) := by
  induction l with
  | nil => exact List.Subperm.refl _
  | cons x rest ih => simpa only [List.flatMap_cons] using (heach x).append ih

theorem IsEither.classesOf_eq {value left right : Option PropValue} (heither : IsEither value left right)
    (hmissing : left = none ∨ right = none) (b : Breakpoint) :
    classesOf b value = classesOf b left ++ classesOf b right := by
  rcases hmissing with hnone | hnone
  · rw [heither.of_left hnone, hnone, classesOf_none, List.nil_append]
  · rw [heither.of_right hnone, hnone, classesOf_none, List.append_nil]

theorem classTokens_folded_eq (props : Props) :
    props.folded.classTokens =
      props.classTokens ++ Breakpoint.all.flatMap fun b => classesOf b (props.get? b.name) := by
  rw [Props.classTokens_folded, ResponsiveProps.tokens_merged]
  simp only [funext (prefixedTokens_responsive props)]
  rfl

/-- Does the rewriter write a class list to the element? -/
def writesClassList (attributes : List Node) : Bool :=
  attributes.any namesClass || (knownProps attributes).merged ≠ ""

/-- The classes that a rewritten element has apart from those of its breakpoints. -/
def ownTokens (given : Node → PropValue) (object : Node → Props) (attributes : List Node) : List (List Char) :=
  if writesClassList attributes then tokens ((lastText? attributes "className").getD "").toList
  else (spreadOut given object attributes).classTokens

theorem get?_spreadOut_written (kept : List Node) (merged : String) (span : Span) (name : String) :
    (spreadOut given object (kept ++ [classNameNode merged span])).get? name =
      if name = "className" then some (.string merged) else (spreadOut given object kept).get? name := by
  rw [get?_spreadOut_append, get?_spreadOut_of_namedValue? (namedValue?_classNameNode given merged span)]
  split <;> rfl

/-- A class list that is written has the classes that are known. -/
theorem classTokens_spreadOut_written (kept : List Node) (span : Span) :
    (spreadOut given object (kept ++ [classNameNode (knownProps attributes).merged span])).classTokens =
      tokens ((lastText? attributes "className").getD "").toList ++
        Breakpoint.all.flatMap fun b => classesOf b ((lastText? attributes b.name).map .string) := by
  have htext : (spreadOut given object (kept ++ [classNameNode (knownProps attributes).merged span])).string?
      "className" = some (knownProps attributes).merged := by
    rw [Props.string?, get?_spreadOut_written]
    rfl
  rw [Props.classTokens, htext, Option.getD_some, ResponsiveProps.tokens_merged]
  simp only [funext (prefixedTokens_knownProps attributes)]
  rfl

/-- No class list is written where none is given and no class of a breakpoint is known. -/
theorem writesClassList_eq_false_iff (attributes : List Node) :
    writesClassList attributes = false ↔
      (∀ a ∈ attributes, namesClass a = false) ∧ (knownProps attributes).merged = "" := by
  simp [writesClassList]

/-- The text of a name is known from an attribute with that name. -/
theorem exists_knownPair?_of_lastText? {name text : String} (hlast : lastText? attributes name = some text) :
    ∃ a ∈ attributes, knownPair? a = some (name, text) := by
  rw [lastText?, List.lookup_eq_some_iff] at hlast
  obtain ⟨before, after, hreverse, _⟩ := hlast
  have hmem : (name, text) ∈ (attributes.filterMap knownPair?).reverse := by simp [hreverse]
  exact List.mem_filterMap.mp (List.mem_reverse.mp hmem)

theorem lastText?_eq_none_of_forall (hnone : ∀ a ∈ attributes, namesClass a = false) :
    lastText? attributes "className" = none := by
  by_contra hsome
  obtain ⟨text, htext⟩ := Option.ne_none_iff_exists'.mp hsome
  obtain ⟨a, ha, hentry⟩ := exists_knownPair?_of_lastText? htext
  have hname := (knownPair?_eq_some_iff.mp hentry).1
  have hnot := hnone a ha
  rw [namesClass, hname] at hnot
  exact absurd hnot (by decide)

/-- The known texts of a breakpoint are in the class list that is written, and the rest stays where it is. -/
theorem classTokens_folded_rewriteAttributes (given : Node → PropValue) (object : Node → Props)
    (hrewritten : isRewritten (attributes.map Role.of) = true) :
    (spreadOut given object (rewriteAttributes attributes)).folded.classTokens.Perm
      (ownTokens given object attributes ++ Breakpoint.all.flatMap fun b =>
        classesOf b ((lastText? attributes b.name).map .string) ++
          classesOf b ((spreadOut given object (attributes.filter fun a => (Role.of a).isKept)).get? b.name)) := by
  have hwritten := rewriteAttributes_of_isRewritten hrewritten
  rw [← writesClassList] at hwritten
  rw [classTokens_folded_eq, hwritten, ownTokens]
  cases hwrites : writesClassList attributes with
  | true =>
      have hbreakpoint : ∀ b : Breakpoint, b.name ≠ "className" := by
        intro b
        cases b <;> decide
      simp only [↓reduceIte, get?_spreadOut_written, hbreakpoint]
      rw [classTokens_spreadOut_written, List.append_assoc]
      exact (List.flatMap_append_perm _ _ _).append_left _
  | false =>
      obtain ⟨hnone, hempty⟩ := (writesClassList_eq_false_iff attributes).mp hwrites
      have hknown := lastText?_eq_none_of_forall hnone
      have hclass := ((isRewritten_iff attributes).mp hrewritten).2
      have hown : (spreadOut given object (attributes.filter fun a => (Role.of a).isKept)).classTokens =
          (spreadOut given object attributes).classTokens := by
        have hsame := (isEither_slot given object hclass none).of_left
          (congrArg (Option.map PropValue.string) hknown)
        rw [slotName, classNameAttribute] at hsame
        rw [Props.classTokens, Props.classTokens, Props.string?, Props.string?, hsame]
      have hbare : ∀ b : Breakpoint, classesOf b ((lastText? attributes b.name).map .string) = [] := by
        intro b
        rw [← prefixedTokens_knownProps]
        exact (ResponsiveProps.merged_eq_empty_iff hknown).mp hempty b
      simp only [Bool.false_eq_true, ↓reduceIte, List.append_nil, hown, hbare, List.nil_append]
      exact List.Perm.refl _

end Classes

section Outcome

variable {given : Node → PropValue} {object : Node → Props} {attributes : List Node}

theorem get?_spreadOut_eq_none_iff {a : Node} (hnone : attributeName? a = none) (name : String) :
    (spreadOut given object [a]).get? name = none ↔ (object a).get? name = none := by
  have hentry : namedValue? given a = none := by rw [namedValue?, hnone, Option.map_none]
  have hgives : [a].flatMap (gives given object) = (object a).entries := by simp [gives, hentry]
  rw [spreadOut, hgives, Props.get?_ofList_eq_none_iff, Props.get?, List.lookup_eq_none_iff]
  simp only [bne_iff_ne, ne_comm]

/-- Where no breakpoint is both known and unknown, and no object has one, a breakpoint is either told or
given. -/
theorem missing_of_isUnmixed (hunmixed : IsUnmixed attributes)
    (hplain : ∀ a ∈ attributes, attributeName? a = none → ∀ b : Breakpoint, (object a).get? b.name = none)
    (b : Breakpoint) :
    (lastText? attributes b.name).map PropValue.string = none ∨
      (spreadOut given object (attributes.filter fun a => (Role.of a).isKept)).get? b.name = none := by
  rw [Option.map_eq_none_iff, or_iff_not_imp_left]
  intro hknown
  obtain ⟨text, htext⟩ := Option.ne_none_iff_exists'.mp hknown
  obtain ⟨a, ha, hentry⟩ := exists_knownPair?_of_lastText? htext
  have hstatic : Role.of a = .staticBreakpoint b text := role_eq_staticBreakpoint_iff.mpr hentry
  rw [spreadOut, Props.get?_ofList_eq_none_iff]
  intro entry hgiven hname
  obtain ⟨c, hc, hgives⟩ := List.mem_flatMap.mp hgiven
  obtain ⟨hmem, hkept⟩ := List.mem_filter.mp hc
  rw [gives] at hgives
  split at hgives
  · rename_i own hown
    have hdescribes := describes_of_namedValue? hown
    rw [← List.mem_singleton.mp hgives, hname] at hdescribes
    cases hrole : Role.of c <;> rw [hrole] at hdescribes hkept
    case dynamicBreakpoint other =>
      have hsame : b = other := Option.some.inj ((slotName_inj _ _).mp (show slotName (some b) = slotName (some other)
        from hdescribes))
      exact hunmixed a ha c hmem b text hstatic (hsame ▸ hrole)
    case other => cases (Props.isMerged_name b).symm.trans hdescribes
    all_goals exact absurd hkept Bool.false_ne_true
  · rename_i hobject
    have hnone := hplain c hmem (Option.map_eq_none_iff.mp hobject) b
    rw [Props.get?, List.lookup_eq_none_iff] at hnone
    have hdiffers := hnone entry hgives
    simp [hname] at hdiffers

/-- A class list that is known is known last. -/
theorem lastText?_ne_none_of_mem {a : Node} (ha : a ∈ attributes) (hclass : namesClass a = true)
    (hrole : Role.of a ≠ .dynamicClassName) : lastText? attributes "className" ≠ none := by
  have htext : knownText? a ≠ none := by
    intro hunknown
    exact hrole (role_eq_dynamicClassName_iff.mpr ⟨hclass, hunknown⟩)
  obtain ⟨text, htext⟩ := Option.ne_none_iff_exists'.mp htext
  have hname : attributeName? a = some classNameAttribute := by simpa [namesClass] using hclass
  have hentry := knownPair?_eq_some_iff.mpr ⟨hname, htext⟩
  intro hnone
  rw [lastText?, List.lookup_eq_none_iff] at hnone
  have hdiffers := hnone _ (List.mem_reverse.mpr (List.mem_filterMap.mpr ⟨a, ha, hentry⟩))
  simp [classNameAttribute] at hdiffers

/-- An attribute that stays gives no class list, unless its object has one. -/
theorem get?_className_of_isKept {a : Node} (hkept : (Role.of a).isKept = true)
    (hobject : attributeName? a = none → (object a).get? "className" = none) :
    (spreadOut given object [a]).get? "className" = none := by
  cases hname : attributeName? a with
  | none => exact (get?_spreadOut_eq_none_iff hname _).mpr (hobject hname)
  | some name =>
      have hentry : namedValue? given a = some (name, attributeValue given a) := by
        rw [namedValue?, hname, Option.map_some]
      rw [isKept_role, Bool.and_eq_true, Bool.not_eq_true', namesClass, hname] at hkept
      rw [get?_spreadOut_of_namedValue? hentry, if_neg]
      rintro rfl
      exact absurd hkept.1 (by decide)

/-- If no object has the last word, the class list that an element comes to is the one that is known. -/
theorem get?_className_of_comesLast (hclass : ∀ a ∈ attributes, Role.of a ≠ .dynamicClassName)
    (hlast : ClassListComesLast object attributes) :
    (spreadOut given object attributes).get? "className" =
      (lastText? attributes "className").map .string := by
  induction attributes with
  | nil => rfl
  | cons a rest ih =>
      have hbehind : ∀ c ∈ rest, Role.of c ≠ .dynamicClassName := fun c hc =>
        hclass c (List.mem_cons_of_mem a hc)
      have hrest : ClassListComesLast object rest := by
        intro before c after hsplit
        exact hlast (a :: before) c after (by rw [hsplit, List.cons_append])
      rw [← List.singleton_append, get?_spreadOut_append, lastText?_append, ih hbehind hrest, Option.map_or]
      cases hknown : lastText? rest "className" with
      | some text => rfl
      | none =>
          obtain ⟨hstays, hgoes⟩ :=
            slot_singleton given object (hclass a List.mem_cons_self) none
          cases hkept : (Role.of a).isKept with
          | false => exact hgoes hkept
          | true =>
              have htold : lastText? [a] "className" = none := hstays hkept
              rw [htold]
              refine get?_className_of_isKept hkept fun hname => ?_
              by_contra hgiven
              obtain ⟨c, hc, hnamed⟩ := hlast [] a rest rfl hname hgiven
              exact lastText?_ne_none_of_mem hc hnamed (hbehind c hc) hknown

/-- Of an element that the rewriter takes up the class list outlasts it if its classes stay. -/
theorem keepsClassList_iff (hrewritten : isRewritten (attributes.map Role.of) = true) :
    KeepsClassList given object attributes ↔
      (spreadOut given object attributes).classTokens.Perm (ownTokens given object attributes) := by
  have hunsettled : ¬ IsSettled attributes := by
    rw [← isRewritten_eq_false_iff, hrewritten]
    exact Bool.noConfusion
  have hwritten := rewriteAttributes_of_isRewritten hrewritten
  rw [← writesClassList] at hwritten
  rw [KeepsClassList, ownTokens, or_iff_right hunsettled]
  cases hwrites : writesClassList attributes with
  | true =>
      have hnamed : ¬ ∀ a ∈ rewriteAttributes attributes, namesClass a = false := by
        intro hnone
        have hnode := hnone (classNameNode (knownProps attributes).merged
          (Classes.ofRoles (attributes.map Role.of)).span) (by simp [hwritten, hwrites])
        rw [← isClassName_role, role_classNameNode] at hnode
        exact Bool.noConfusion hnode
      rw [or_iff_right hnamed]
      rfl
  | false =>
      obtain ⟨hnone, _⟩ := (writesClassList_eq_false_iff attributes).mp hwrites
      have hunnamed : ∀ a ∈ rewriteAttributes attributes, namesClass a = false := by
        intro a ha
        rw [hwritten, hwrites] at ha
        simp only [Bool.false_eq_true, ↓reduceIte, List.append_nil] at ha
        exact hnone a (List.mem_filter.mp ha).1
      exact iff_of_true (Or.inl hunnamed) (List.Perm.refl _)

/-- An element loses no class if its class list outlasts the rewriter. If moreover no breakpoint is given
twice over, once known and once not, it has the same classes exactly then; and an object takes nothing away
if a class list of the element stands behind it. -/
theorem classTokens_rewriteAttributes_spread (given : Node → PropValue) (object : Node → Props)
    (attributes : List Node) :
    let before := (spreadOut given object attributes).folded.classTokens
    let after := (spreadOut given object (rewriteAttributes attributes)).folded.classTokens
    (KeepsClassList given object attributes → before.Subperm after) ∧
      (IsUnmixed attributes →
        (∀ a ∈ attributes, attributeName? a = none → ∀ b : Breakpoint, (object a).get? b.name = none) →
        (before.Perm after ↔ KeepsClassList given object attributes)) ∧
      (ClassListComesLast object attributes → KeepsClassList given object attributes) := by
  intro before after
  cases hrewritten : isRewritten (attributes.map Role.of) with
  | false =>
      have hsettled := (isRewritten_eq_false_iff attributes).mp hrewritten
      have hsame : before = after := by simp only [before, after, rewriteAttributes_of_settled hsettled]
      rw [hsame]
      exact ⟨fun _ => List.Subperm.refl _, fun _ _ => iff_of_true (List.Perm.refl _) (Or.inl hsettled),
        fun _ => Or.inl hsettled⟩
  | true =>
      have hclass := ((isRewritten_iff attributes).mp hrewritten).2
      have hafter := classTokens_folded_rewriteAttributes given object hrewritten
      have hparts := fun b : Breakpoint => isEither_slot given object hclass (some b)
      have hbefore : before = _ := classTokens_folded_eq _
      rw [keepsClassList_iff hrewritten]
      refine ⟨fun hkeeps => ?_, fun hunmixed hplain => ?_, fun hlast => ?_⟩
      · rw [hbefore]
        exact (hkeeps.subperm.append (subperm_flatMap (fun b => (hparts b).subperm_classesOf b) _)).trans
          hafter.symm.subperm
      · have heach := fun b => (hparts b).classesOf_eq (missing_of_isUnmixed hunmixed hplain b) b
        rw [hbefore, List.Perm.congr_right hafter]
        simp only [slotName] at heach
        simp only [heach]
        exact List.perm_append_right_iff _
      · have hown : (spreadOut given object attributes).classTokens =
            tokens ((lastText? attributes "className").getD "").toList := by
          rw [Props.classTokens, Props.string?, get?_className_of_comesLast hclass hlast]
          cases lastText? attributes "className" <;> rfl
        rw [ownTokens, ← hown, ite_self]

/-- An attribute that spreads an object. -/
def spreadAttribute (source : String) : Node := .mk .spread .nowhere [.leaf (.identifier source) .nowhere]

/-- Values of which the class list is the only one. -/
def classOnly (classes : String) : Props := .ofList [("className", .string classes)]

theorem get?_name_classOnly (classes : String) (b : Breakpoint) : (classOnly classes).get? b.name = none := by
  cases b <;> rfl

/-- A panel with a class list of its own behind an object that has one. -/
def panelAttributes : List Node :=
  [spreadAttribute "rest", stringAttribute "className" "a", stringAttribute "md" "x"]

theorem classTokens_rewriteAttributes_panel :
    (spreadOut (fun _ => .null) (fun _ => classOnly "p") panelAttributes).folded.classTokens.Perm
      (spreadOut (fun _ => .null) (fun _ => classOnly "p") (rewriteAttributes panelAttributes)).folded.classTokens := by
  have hknown : IsKnown panelAttributes := by
    intro a ha
    simp only [panelAttributes, List.mem_cons, List.not_mem_nil, or_false] at ha
    rcases ha with rfl | rfl | rfl <;> exact ⟨by decide, fun b => by cases b <;> decide⟩
  have hlast : ClassListComesLast (fun _ => classOnly "p") panelAttributes := by
    intro before a after hsplit hname _
    rcases before with _ | ⟨first, before⟩
    · obtain ⟨_, rfl⟩ := List.cons.inj hsplit
      exact ⟨stringAttribute "className" "a", List.mem_cons_self, by decide⟩
    · obtain ⟨_, hrest⟩ := List.cons.inj hsplit
      have ha : a ∈ [stringAttribute "className" "a", stringAttribute "md" "x"] := by simp [hrest]
      simp only [List.mem_cons, List.not_mem_nil, or_false] at ha
      rcases ha with rfl | rfl <;> exact absurd hname (by decide)
  obtain ⟨_, hiff, hkeeps⟩ :=
    classTokens_rewriteAttributes_spread (fun _ => .null) (fun _ => classOnly "p") panelAttributes
  exact (hiff hknown.isUnmixed fun _ _ _ b => get?_name_classOnly "p" b).mpr (hkeeps hlast)

/-- The class list of an object gives way to the one that is written behind it, and a breakpoint that is
given twice over has the classes of both after it was rewritten. -/
theorem classTokens_rewriteAttributes_lost_and_gained :
    let object := fun _ : Node => classOnly "p"
    let before := fun attributes => (spreadOut (fun _ => .string "d") object attributes).folded.classTokens
    let after := fun attributes => before (rewriteAttributes attributes)
    let lost := [stringAttribute "md" "x", spreadAttribute "rest"]
    let gained := [spreadAttribute "rest", stringAttribute "className" "a", stringAttribute "md" "x",
      dynamicAttribute "md" "wide"]
    (∀ b : Breakpoint, (classOnly "p").get? b.name = none) ∧
      before lost = ["p".toList, "md:x".toList] ∧ after lost = ["md:x".toList] ∧
      ¬ (before lost).Perm (after lost) ∧
      before gained = ["a".toList, "md:d".toList] ∧ after gained = ["a".toList, "md:x".toList, "md:d".toList] ∧
      ¬ (before gained).Perm (after gained) := by
  refine ⟨get?_name_classOnly "p", ?_⟩
  decide +kernel

end Outcome

end BreakpointProps.Rewrite
