import BreakpointProps.Proofs.Element.Props
import BreakpointProps.Proofs.Rewrite.Roles

/-!
What the attributes of an element come to while the program runs, and what the rewriter does to it:
the class lists that it takes out of the attributes are merged into one value.
-/

namespace BreakpointProps.Rewrite

open Script

/-- The name under which an attribute gives its value. Spread attributes have none of their own. -/
def attributeName? : Node → Option String
  | .mk .attribute _ [.mk (.name name) _ _, _] => some name
  | .mk .attribute _ [.mk .tagNamespaced _ [.mk (.name space) _ _, .mk (.name name) _ _], _] =>
    some (space ++ ":" ++ name)
  | _ => none

/-- The value of an attribute: the text that it is known to be, or else what the program gives. -/
def attributeValue (given : Node → PropValue) : Node → PropValue
  | .mk .attribute span [name, value] =>
    match staticValue? value with
    | some text => .string text
    | none => given (.mk .attribute span [name, value])
  | node => given node

/-- The name of an attribute with its value. -/
def namedValue? (given : Node → PropValue) (a : Node) : Option (String × PropValue) :=
  (attributeName? a).map fun name => (name, attributeValue given a)

/-- The values that attributes give to an element, if none of them is spread from an object. -/
def evaluate? (given : Node → PropValue) (attributes : List Node) : Option Props :=
  if attributes.all fun a => (namedValue? given a).isSome then
    some (.ofList (attributes.filterMap (namedValue? given)))
  else none

/-- The value that attributes give to a name last. -/
def lastValue? (given : Node → PropValue) (attributes : List Node) (name : String) :
    Option PropValue :=
  (attributes.filterMap (namedValue? given)).reverse.lookup name

/-- What the role of an attribute says about its name and its value. -/
def Role.Describes (name : String) (value : PropValue) : Role → Prop
  | .staticBreakpoint b classes => name = b.name ∧ value = .string classes
  | .dynamicBreakpoint b => name = b.name
  | .staticClassName classes _ => name = classNameAttribute ∧ value = .string classes
  | .dynamicClassName => name = classNameAttribute
  | .other => Props.isMerged name = false

/-- No breakpoint has both a class list that is known and one that is not. -/
def IsUnmixed (attributes : List Node) : Prop :=
  ∀ a ∈ attributes, ∀ c ∈ attributes, ∀ b classes,
    Role.of a = .staticBreakpoint b classes → Role.of c ≠ .dynamicBreakpoint b

/-- Every class list of the element and of its breakpoints is known. -/
def IsKnown (attributes : List Node) : Prop :=
  ∀ a ∈ attributes, Role.of a ≠ .dynamicClassName ∧ ∀ b, Role.of a ≠ .dynamicBreakpoint b

theorem IsKnown.isUnmixed {attributes : List Node} (hknown : IsKnown attributes) :
    IsUnmixed attributes := by
  intro _ _ c hc b _ _
  exact (hknown c hc).2 b

/-- A name with a colon is no name that is merged. -/
theorem isMerged_of_colon (space name : String) : Props.isMerged (space ++ ":" ++ name) = false := by
  have hcolon : ':' ∈ (space ++ ":" ++ name).toList := by simp
  rw [Props.isMerged, Bool.or_eq_false_iff]
  constructor
  · rw [beq_eq_false_iff_ne]
    intro heq
    rw [heq] at hcolon
    exact absurd hcolon (by decide)
  · rw [Option.isSome_eq_false_iff, Option.isNone_iff_eq_none]
    cases hname : Breakpoint.ofName? (space ++ ":" ++ name) with
    | none => rfl
    | some b =>
        rw [← Breakpoint.name_of_ofName? hname] at hcolon
        cases b <;> exact absurd hcolon (by decide)

/-- The role of an attribute fits the name and the value that it gives. -/
theorem describes_of_namedValue? {given : Node → PropValue} {a : Node} {name : String} {value : PropValue}
    (hentry : namedValue? given a = some (name, value)) : (Role.of a).Describes name value := by
  rw [namedValue?, Option.map_eq_some_iff] at hentry
  obtain ⟨_, hname, hpair⟩ := hentry
  obtain ⟨rfl, rfl⟩ := Prod.mk.inj hpair
  unfold attributeName? at hname
  split at hname
  · rename_i span first _ _ node
    obtain rfl := Option.some.inj hname
    rw [Role.of, attributeValue]
    by_cases hclass : first = classNameAttribute
    · subst hclass
      cases hstatic : staticValue? node <;> simp [Role.Describes]
    · cases hbreakpoint : Breakpoint.ofName? first with
      | none =>
          have hmerged : Props.isMerged first = false := by
            simpa [Props.isMerged, hbreakpoint, classNameAttribute] using hclass
          cases hstatic : staticValue? node <;> simpa [hclass, Role.Describes] using hmerged
      | some b =>
          have hfirst := (Breakpoint.name_of_ofName? hbreakpoint).symm
          cases hstatic : staticValue? node <;> simpa [hclass, Role.Describes] using hfirst
  · obtain rfl := Option.some.inj hname
    exact isMerged_of_colon _ _
  · exact absurd hname (by simp)

/-- What gives no value of its own is nothing to the rewriter. -/
theorem role_of_namedValue?_eq_none {given : Node → PropValue} {a : Node} (hentry : namedValue? given a = none) :
    Role.of a = .other := by
  rw [namedValue?, Option.map_eq_none_iff] at hentry
  unfold Role.of
  split
  · simp [attributeName?] at hentry
  · rfl

/-- An attribute is a class list of the element if its name says so. -/
theorem isClassName_iff_of_describes {role : Role} {name : String} {value : PropValue}
    (hdescribes : role.Describes name value) : role.isClassName = true ↔ name = "className" := by
  cases role with
  | staticBreakpoint b classes =>
      obtain ⟨rfl, rfl⟩ := hdescribes
      cases b <;> simp [Role.isClassName, Breakpoint.name]
  | dynamicBreakpoint b =>
      obtain rfl := hdescribes
      cases b <;> simp [Role.isClassName, Breakpoint.name]
  | staticClassName classes span =>
      obtain ⟨rfl, rfl⟩ := hdescribes
      simp [Role.isClassName, classNameAttribute]
  | dynamicClassName =>
      obtain rfl := hdescribes
      simp [Role.isClassName, classNameAttribute]
  | other =>
      have hmerged : Props.isMerged name = false := hdescribes
      simp only [Role.isClassName, Bool.false_eq_true, false_iff]
      rintro rfl
      exact absurd hmerged (by decide)

/-- Is this the name of a class list that the rewriter takes out of the attributes? -/
def isTaken (attributes : List Node) (name : String) : Bool :=
  Props.isMerged name &&
    (Breakpoint.ofName? name).all fun b => !(attributes.map Role.of).contains (.dynamicBreakpoint b)

@[simp] theorem isTaken_className (attributes : List Node) :
    isTaken attributes "className" = true := by
  have hname : Breakpoint.ofName? "className" = none := by decide
  simp [isTaken, Props.isMerged, hname]

theorem isTaken_name_iff (attributes : List Node) (b : Breakpoint) :
    isTaken attributes b.name = true ↔ ∀ a ∈ attributes, Role.of a ≠ .dynamicBreakpoint b := by
  simp [isTaken, Props.isMerged_name]

@[simp] theorem namedValue?_classNameNode (given : Node → PropValue) (value : String) (span : Span) :
    namedValue? given (classNameNode value span) = some ("className", .string value) := by
  by_cases hcontainer : needsContainer value <;>
    simp [namedValue?, classNameNode, attributeName?, attributeValue, Node.leaf, staticValue?, staticText?,
      classNameAttribute, hcontainer]

/-- The values without those of the taken names, and behind them the class list that is merged from
them, if there was one or there are classes. -/
def extracted (taken : String → Bool) (props : Props) : Props :=
  let merged := (props.only taken).responsive.merged
  let kept := props.only fun name => !taken name
  if (props.get? "className").isSome || !merged.isEmpty then
    ⟨kept.entries ++ [("className", .string merged)]⟩
  else kept

section Evaluation

variable {given : Node → PropValue} {attributes : List Node}

theorem evaluate?_eq_some_iff (props : Props) :
    evaluate? given attributes = some props ↔
      (∀ a ∈ attributes, (namedValue? given a).isSome) ∧
        Props.ofList (attributes.filterMap (namedValue? given)) = props := by
  simp [evaluate?]

/-- A name has the value that the attributes give to it last. -/
theorem get?_of_evaluate? {props : Props} (heval : evaluate? given attributes = some props)
    (name : String) : props.get? name = lastValue? given attributes name := by
  obtain ⟨_, rfl⟩ := (evaluate?_eq_some_iff props).mp heval
  exact Props.get?_ofList _ name

/-- Some attribute gives the value that a name has last. -/
theorem exists_namedValue?_of_lastValue? {name : String} {value : PropValue}
    (hlast : lastValue? given attributes name = some value) :
    ∃ a ∈ attributes, namedValue? given a = some (name, value) := by
  rw [lastValue?, List.lookup_eq_some_iff] at hlast
  obtain ⟨before, after, hreverse, _⟩ := hlast
  have hmem : (name, value) ∈ (attributes.filterMap (namedValue? given)).reverse := by
    simp [hreverse]
  exact List.mem_filterMap.mp (List.mem_reverse.mp hmem)

/-- By its name alone an attribute is told to be taken out or to stay. -/
theorem isTaken_eq_not_isKept (hunmixed : IsUnmixed attributes)
    (hclass : ∀ a ∈ attributes, Role.of a ≠ .dynamicClassName) {a : Node} (ha : a ∈ attributes)
    {name : String} {value : PropValue} (hentry : namedValue? given a = some (name, value)) :
    isTaken attributes name = !(Role.of a).isKept := by
  have hdescribes := describes_of_namedValue? hentry
  cases hrole : Role.of a with
  | staticBreakpoint b classes =>
      rw [hrole] at hdescribes
      rw [hdescribes.1]
      apply (isTaken_name_iff attributes b).mpr
      intro c hc
      exact hunmixed a ha c hc b classes hrole
  | dynamicBreakpoint b =>
      rw [hrole] at hdescribes
      rw [hdescribes, Role.isKept, Bool.not_true, ← Bool.not_eq_true, isTaken_name_iff]
      intro hall
      exact hall a ha hrole
  | staticClassName classes span =>
      rw [hrole] at hdescribes
      rw [hdescribes.1]
      exact isTaken_className attributes
  | dynamicClassName => exact absurd hrole (hclass a ha)
  | other =>
      rw [hrole] at hdescribes
      have hmerged : Props.isMerged name = false := hdescribes
      simp [isTaken, hmerged, Role.isKept]

/-- What some of the attributes give is a part of what all of them give, if the names tell which ones
they are. -/
theorem ofList_filter {wanted : String → Bool} {chosen : Node → Bool}
    (hagree : ∀ a ∈ attributes, ∀ name value,
      namedValue? given a = some (name, value) → wanted name = chosen a) :
    Props.ofList ((attributes.filter chosen).filterMap (namedValue? given)) =
      (Props.ofList (attributes.filterMap (namedValue? given))).only wanted := by
  rw [Props.only_ofList]
  congr 1
  induction attributes with
  | nil => rfl
  | cons a rest ih =>
      have hrest := ih fun c hc => hagree c (List.mem_cons_of_mem a hc)
      rw [List.filterMap_cons, List.filter_cons]
      cases hentry : namedValue? given a with
      | none =>
          cases hchosen : chosen a with
          | true => simpa [List.filterMap_cons, hentry] using hrest
          | false => simpa using hrest
      | some entry =>
          have hwanted := hagree a List.mem_cons_self entry.1 entry.2 hentry
          cases hchosen : chosen a with
          | true => simp [hentry, hwanted, hchosen, hrest]
          | false => simp [hwanted, hchosen, hrest]

/-- What the rewriter collects are the class lists among the values of the attributes that go. -/
theorem props_ofRoles (hclass : ∀ a ∈ attributes, Role.of a ≠ .dynamicClassName) :
    (Classes.ofRoles (attributes.map Role.of)).props =
      (Props.ofList ((attributes.filter fun a => !(Role.of a).isKept).filterMap
        (namedValue? given))).responsive := by
  induction attributes using List.reverseRecOn with
  | nil => rfl
  | append_singleton rest a ih =>
      have hrest := ih fun c hc => hclass c (List.mem_append_left _ hc)
      rw [List.map_append, Classes.ofRoles, List.foldl_append, ← Classes.ofRoles, List.filter_append,
        List.filterMap_append]
      simp only [List.map_cons, List.map_nil, List.foldl_cons, List.foldl_nil]
      cases hentry : namedValue? given a with
      | none =>
          have hrole := role_of_namedValue?_eq_none hentry
          simp [hrole, Classes.add, Role.isKept, hrest]
      | some entry =>
          obtain ⟨name, value⟩ := entry
          have hdescribes := describes_of_namedValue? hentry
          cases hrole : Role.of a with
          | staticBreakpoint b classes =>
              rw [hrole] at hdescribes
              obtain ⟨rfl, rfl⟩ := hdescribes
              simp [hrole, Classes.add, Role.isKept, hentry, hrest, Props.ofList_append_singleton]
          | staticClassName classes span =>
              rw [hrole] at hdescribes
              obtain ⟨rfl, rfl⟩ := hdescribes
              simp [hrole, Classes.add, Role.isKept, hentry, hrest, Props.ofList_append_singleton,
                classNameAttribute]
          | dynamicClassName => exact absurd hrole (hclass a (by simp))
          | dynamicBreakpoint b => simp [hrole, Classes.add, Role.isKept, hrest]
          | other => simp [hrole, Classes.add, Role.isKept, hrest]

/-- An element has a value for its class list if one of its attributes is one. -/
theorem any_isClassName {props : Props} (heval : evaluate? given attributes = some props) :
    (attributes.map Role.of).any Role.isClassName = (props.get? "className").isSome := by
  obtain ⟨hnamed, rfl⟩ := (evaluate?_eq_some_iff props).mp heval
  rw [Bool.eq_iff_iff, Option.isSome_iff_ne_none, ne_eq, Props.get?_ofList_eq_none_iff,
    List.any_map, List.any_eq_true]
  constructor
  · rintro ⟨a, ha, hclass⟩ hnone
    obtain ⟨⟨name, value⟩, hentry⟩ := Option.isSome_iff_exists.mp (hnamed a ha)
    have hname := (isClassName_iff_of_describes (describes_of_namedValue? hentry)).mp hclass
    exact hnone _ (List.mem_filterMap.mpr ⟨a, ha, hentry⟩) hname
  · intro hsome
    push Not at hsome
    obtain ⟨⟨name, value⟩, hmem, hname⟩ := hsome
    obtain ⟨a, ha, hentry⟩ := List.mem_filterMap.mp hmem
    exact ⟨a, ha, (isClassName_iff_of_describes (describes_of_namedValue? hentry)).mpr hname⟩

/-- Rewriting the attributes and then evaluating them is evaluating them and then taking out the class
lists whose names the rewriter takes. -/
theorem evaluate?_rewriteAttributes_of_isRewritten (hunmixed : IsUnmixed attributes)
    (hrewritten : isRewritten (attributes.map Role.of) = true) {props : Props}
    (heval : evaluate? given attributes = some props) :
    evaluate? given (rewriteAttributes attributes) =
      some (extracted (isTaken attributes) props) := by
  have hclass := ((isRewritten_iff attributes).mp hrewritten).2
  have hname := any_isClassName heval
  obtain ⟨hnamed, rfl⟩ := (evaluate?_eq_some_iff props).mp heval
  have hmerged : (Classes.ofRoles (attributes.map Role.of)).props =
      ((Props.ofList (attributes.filterMap (namedValue? given))).only (isTaken attributes)).responsive := by
    rw [props_ofRoles hclass, ofList_filter]
    intro a ha name value hentry
    exact isTaken_eq_not_isKept hunmixed hclass ha hentry
  have hkept : Props.ofList
        ((attributes.filter fun a => (Role.of a).isKept).filterMap (namedValue? given)) =
      (Props.ofList (attributes.filterMap (namedValue? given))).only
        fun name => !isTaken attributes name := by
    apply ofList_filter
    intro a ha name value hentry
    rw [isTaken_eq_not_isKept hunmixed hclass ha hentry, Bool.not_not]
  rw [evaluate?_eq_some_iff]
  constructor
  · intro a ha
    rcases mem_rewriteAttributes ha with hold | ⟨value, span, rfl⟩
    · exact hnamed a hold
    · simp
  · simp only [rewriteAttributes, hrewritten, ↓reduceIte, hname, hmerged, extracted]
    split
    · rw [List.filterMap_append, List.filterMap_cons, namedValue?_classNameNode, List.filterMap_nil,
        Props.ofList_append_singleton, hkept]
      have hunwanted : (!isTaken attributes "className") = false := by simp
      have hgone := Props.get?_only_of_unwanted (fun name => !isTaken attributes name)
        (Props.ofList (attributes.filterMap (namedValue? given))) hunwanted
      rw [← Props.entries_insert_of_none hgone]
    · exact hkept

end Evaluation

end BreakpointProps.Rewrite
