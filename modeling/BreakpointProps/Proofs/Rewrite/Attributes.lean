import BreakpointProps.Proofs.ResponsiveProps
import BreakpointProps.Proofs.Rewrite.Evaluate
import BreakpointProps.Rewrite.Tree

/-!
The attributes of one element after rewriting, told by the names of the attributes and the texts of their
values: which stay, in which order, and what the class list behind them says.
-/

namespace BreakpointProps.Rewrite

open Script

section Known

/-- The text that the value of an attribute is known to be. -/
def knownText? : Node → Option String
  | .mk .attribute _ [_, value] => staticValue? value
  | _ => none

/-- The name of an attribute with the text that its value is known to be. -/
def knownPair? (a : Node) : Option (String × String) :=
  (attributeName? a).bind fun name => (knownText? a).map fun text => (name, text)

/-- The text that the attributes with a name are known to be, the last one of them counting. -/
def lastText? (attributes : List Node) (name : String) : Option String :=
  (attributes.filterMap knownPair?).reverse.lookup name

/-- The class lists of an element and its breakpoints as far as they are known. -/
def knownProps (attributes : List Node) : ResponsiveProps where
  className := lastText? attributes classNameAttribute
  sm := lastText? attributes Breakpoint.sm.name
  md := lastText? attributes Breakpoint.md.name
  lg := lastText? attributes Breakpoint.lg.name
  xl := lastText? attributes Breakpoint.xl.name
  xxl := lastText? attributes Breakpoint.xxl.name

/-- Is the attribute a class list of the element? -/
def namesClass (a : Node) : Bool := attributeName? a == some classNameAttribute

/-- Is the attribute the class list of a breakpoint, and is it known? -/
def tellsBreakpoint (a : Node) : Bool :=
  (knownPair? a).any fun (name, _) => (Breakpoint.ofName? name).isSome

end Known

section Roles

variable {a : Node}

/-- An attribute with a plain name has the role that its name and its text give it, and what has no such
name plays none. -/
theorem role_cases (a : Node) :
    (∃ name span, attributeName? a = some name ∧
      Role.of a =
        if name == classNameAttribute then
          match knownText? a with
          | some classes => .staticClassName classes span
          | none => .dynamicClassName
        else match Breakpoint.ofName? name, knownText? a with
          | some b, some classes => .staticBreakpoint b classes
          | some b, none => .dynamicBreakpoint b
          | none, _ => .other) ∨
    (Role.of a = .other ∧ ∀ name, attributeName? a = some name → Props.isMerged name = false) := by
  unfold attributeName?
  split
  · exact Or.inl ⟨_, _, rfl, rfl⟩
  · refine Or.inr ⟨rfl, fun name hname => ?_⟩
    rw [← Option.some.inj hname]
    exact isMerged_of_colon _ _
  · rename_i hplain _
    refine Or.inr ⟨?_, nofun⟩
    unfold Role.of
    split
    · exact absurd rfl (hplain _ _ _ _ _)
    · rfl

/-- The name of the attribute for a slot. -/
def slotName : Option Breakpoint → String
  | none => classNameAttribute
  | some b => b.name

theorem slotName_inj (slot other : Option Breakpoint) : slotName slot = slotName other ↔ slot = other := by
  constructor
  · intro hname
    rcases slot with _ | (_ | _) <;> rcases other with _ | (_ | _) <;> first | rfl | exact absurd hname (by decide)
  · rintro rfl
    rfl

theorem knownPair?_eq_some_iff {name text : String} :
    knownPair? a = some (name, text) ↔ attributeName? a = some name ∧ knownText? a = some text := by
  simp [knownPair?, Option.bind_eq_some_iff]

/-- The slot that a role fills, with its class list. -/
def Role.filled? : Role → Option (Option Breakpoint × String)
  | .staticBreakpoint b classes => some (some b, classes)
  | .staticClassName classes _ => some (none, classes)
  | _ => none

/-- A slot is filled by a known text under its name. -/
theorem filled?_role_eq_some_iff (a : Node) (slot : Option Breakpoint) (text : String) :
    (Role.of a).filled? = some (slot, text) ↔ knownPair? a = some (slotName slot, text) := by
  rw [knownPair?_eq_some_iff]
  rcases role_cases a with ⟨name, span, hname, hrole⟩ | ⟨hrole, hother⟩
  · rw [hrole, hname, Option.some.injEq]
    by_cases hclass : name = classNameAttribute
    · subst hclass
      have hslot : classNameAttribute = slotName slot ↔ slot = none := (slotName_inj none slot).trans eq_comm
      rw [hslot]
      cases knownText? a <;> simp [Role.filled?, eq_comm]
    · rw [if_neg (by simpa using hclass)]
      cases hb : Breakpoint.ofName? name with
      | none =>
          have hne : name ≠ slotName slot := by
            rintro rfl
            cases slot with
            | none => exact hclass rfl
            | some b => cases (Breakpoint.ofName?_name b).symm.trans hb
          cases knownText? a <;> simp [Role.filled?, hne]
      | some b =>
          obtain rfl := Breakpoint.name_of_ofName? hb
          have hslot : b.name = slotName slot ↔ slot = some b := (slotName_inj (some b) slot).trans eq_comm
          rw [hslot]
          cases knownText? a <;> simp [Role.filled?, eq_comm]
  · rw [hrole]
    refine iff_of_false nofun fun hnamed => ?_
    have hmerged := hother _ hnamed.1
    cases slot with
    | none => exact absurd hmerged (by decide)
    | some b => cases (Props.isMerged_name b).symm.trans hmerged

theorem role_eq_staticBreakpoint_iff {b : Breakpoint} {text : String} :
    Role.of a = .staticBreakpoint b text ↔ knownPair? a = some (b.name, text) := by
  have hfilled := filled?_role_eq_some_iff a (some b) text
  rw [slotName] at hfilled
  rw [← hfilled]
  cases Role.of a <;> simp [Role.filled?]

/-- What an attribute is to the rewriter can be told from its name and its text. -/
theorem isClassName_role (a : Node) : (Role.of a).isClassName = namesClass a := by
  rw [namesClass]
  rcases role_cases a with ⟨name, span, hname, hrole⟩ | ⟨hrole, hother⟩
  · rw [hrole, hname]
    by_cases hclass : name = classNameAttribute
    · cases knownText? a <;> simp [hclass, Role.isClassName]
    · cases Breakpoint.ofName? name <;> cases knownText? a <;> simp [hclass, Role.isClassName]
  · rw [hrole, eq_comm]
    change (attributeName? a == some classNameAttribute) = false
    rw [beq_eq_false_iff_ne]
    intro hclass
    exact absurd (hother _ hclass) (by decide)

theorem isStaticBreakpoint_role (a : Node) : (Role.of a).isStaticBreakpoint = tellsBreakpoint a := by
  rw [Bool.eq_iff_iff, tellsBreakpoint, Option.any_eq_true]
  constructor
  · intro hstatic
    cases hrole : Role.of a with
    | staticBreakpoint b classes =>
        exact ⟨_, role_eq_staticBreakpoint_iff.mp hrole, by simp⟩
    | _ => rw [hrole] at hstatic; exact absurd hstatic Bool.false_ne_true
  · rintro ⟨⟨name, classes⟩, hentry, hname⟩
    obtain ⟨b, hb⟩ := Option.isSome_iff_exists.mp hname
    obtain rfl := Breakpoint.name_of_ofName? hb
    rw [role_eq_staticBreakpoint_iff.mpr hentry, Role.isStaticBreakpoint]

theorem role_eq_dynamicClassName_iff :
    Role.of a = .dynamicClassName ↔ namesClass a = true ∧ knownText? a = none := by
  constructor
  · intro hrole
    have hclass : namesClass a = true := by rw [← isClassName_role, hrole, Role.isClassName]
    refine ⟨hclass, ?_⟩
    by_contra hknown
    obtain ⟨text, htext⟩ := Option.ne_none_iff_exists'.mp hknown
    have hentry := knownPair?_eq_some_iff.mpr ⟨by simpa [namesClass] using hclass, htext⟩
    have hfilled := (filled?_role_eq_some_iff a none _).mpr hentry
    rw [hrole] at hfilled
    cases hfilled
  · rintro ⟨hclass, hunknown⟩
    rw [← isClassName_role] at hclass
    cases hrole : Role.of a with
    | staticClassName classes span =>
        have hfilled : (Role.of a).filled? = some (none, classes) := by rw [hrole, Role.filled?]
        have hentry := (filled?_role_eq_some_iff _ _ _).mp hfilled
        cases hunknown.symm.trans (knownPair?_eq_some_iff.mp hentry).2
    | dynamicClassName => rfl
    | _ => rw [hrole] at hclass; exact absurd hclass Bool.false_ne_true

theorem isKept_role (a : Node) : (Role.of a).isKept = (!namesClass a && !tellsBreakpoint a) := by
  rw [← isClassName_role, ← isStaticBreakpoint_role]
  cases Role.of a <;> rfl

end Roles

section Collected

variable {attributes : List Node}

theorem isRewritten_eq (attributes : List Node) :
    isRewritten (attributes.map Role.of) =
      (attributes.any tellsBreakpoint &&
        !attributes.any fun a => namesClass a && (knownText? a).isNone) := by
  rw [Bool.eq_iff_iff, isRewritten_iff]
  simp [isStaticBreakpoint_role, role_eq_dynamicClassName_iff]

theorem slot_knownProps (attributes : List Node) (slot : Option Breakpoint) :
    (knownProps attributes).slot slot = lastText? attributes (slotName slot) := by
  rcases slot with _ | (_ | _) <;> rfl

/-- What stands under a key behind one more attribute: its own text if it is under the key. -/
theorem lookup_filterMap_concat {key : Type} [BEq key] [LawfulBEq key]
    (told? : Node → Option (key × String)) (rest : List Node) (a : Node) (k : key) :
    ((rest ++ [a]).filterMap told?).reverse.lookup k =
      ((told? a).bind fun entry => if k == entry.1 then some entry.2 else none).or
        ((rest.filterMap told?).reverse.lookup k) := by
  rw [List.filterMap_append, List.reverse_append]
  cases hentry : told? a with
  | none => simp [hentry]
  | some entry =>
      obtain ⟨other, text⟩ := entry
      cases hkey : k == other <;> simp [hentry, hkey, List.lookup_cons]

/-- A slot is filled by the last text that is known under its name. -/
theorem lookup_filled? (attributes : List Node) (slot : Option Breakpoint) :
    (attributes.filterMap fun a => (Role.of a).filled?).reverse.lookup slot =
      lastText? attributes (slotName slot) := by
  induction attributes using List.reverseRecOn with
  | nil => rfl
  | append_singleton rest a ih =>
      have hsame : ((Role.of a).filled?.bind fun entry => if slot == entry.1 then some entry.2 else none) =
          (knownPair? a).bind fun entry => if slotName slot == entry.1 then some entry.2 else none := by
        ext text
        have hfilled := filled?_role_eq_some_iff a slot text
        simpa [Option.bind_eq_some_iff] using hfilled
      rw [lookup_filterMap_concat, lastText?, lookup_filterMap_concat, hsame, ih, lastText?]

/-- Collecting the class lists of roles is giving the slots that they fill their class lists. -/
theorem props_ofRoles_eq_assigned (roles : List Role) :
    (Classes.ofRoles roles).props = ResponsiveProps.assigned (roles.filterMap Role.filled?) := by
  induction roles using List.reverseRecOn with
  | nil => rfl
  | append_singleton rest role ih =>
      rw [Classes.ofRoles, List.foldl_append, ← Classes.ofRoles, ResponsiveProps.assigned,
        List.filterMap_append, List.foldl_append, ← ResponsiveProps.assigned, ← ih]
      cases role <;> rfl

/-- What is collected from an element are its class lists as far as they are known. -/
theorem props_ofRoles_eq_knownProps (attributes : List Node) :
    (Classes.ofRoles (attributes.map Role.of)).props = knownProps attributes := by
  apply ResponsiveProps.ext_slot
  intro slot
  rw [props_ofRoles_eq_assigned, ResponsiveProps.slot_assigned, slot_knownProps, ← lookup_filled?,
    List.filterMap_map]
  rfl

/-- An attribute that is written for a class list is known to have it. -/
theorem knownPair?_classNameNode (value : String) (span : Span) :
    knownPair? (classNameNode value span) = some (classNameAttribute, value) := by
  have hrole : (Role.of (classNameNode value span)).filled? = some (none, value) := by
    rw [role_classNameNode, Role.filled?]
  exact (filled?_role_eq_some_iff _ _ _).mp hrole

/-- The attributes of a rewritten element: those that stay, and the merged class list if it is written. -/
theorem rewriteAttributes_of_isRewritten (hrewritten : isRewritten (attributes.map Role.of) = true) :
    rewriteAttributes attributes =
      (attributes.filter fun a => (Role.of a).isKept) ++
        if attributes.any namesClass || (knownProps attributes).merged ≠ "" then
          [classNameNode (knownProps attributes).merged (Classes.ofRoles (attributes.map Role.of)).span]
        else [] := by
  have hnonempty : (!(knownProps attributes).merged.isEmpty) =
      decide ((knownProps attributes).merged ≠ "") := by
    rw [Bool.eq_iff_iff]
    simp
  simp only [rewriteAttributes, hrewritten, ↓reduceIte, props_ofRoles_eq_knownProps, List.any_map,
    Function.comp_def, isClassName_role]
  rw [← hnonempty]
  split <;> simp only [List.append_nil]

/-- An element is taken up if the class list of a breakpoint is known and no class list of the element is
unknown. The attributes that stay then keep their order, and behind them stands the class list that is
merged from the texts known last, if there was a class list or the merged one is not empty. -/
theorem rewriteTag_openingTag (file : String) (selfClosing : Bool) (span : Span) (name types : Node)
    (attributes : List Node) :
    let takenUp := attributes.any tellsBreakpoint &&
      !attributes.any fun a => namesClass a && (knownText? a).isNone
    let merged := (knownProps attributes).merged
    ∃ written, knownPair? written = some ("className", merged) ∧
      (rewriteTag file (.openingTag selfClosing) span (name :: types :: attributes)).1 =
        .mk (.openingTag selfClosing) span (name :: types ::
          if takenUp then
            (attributes.filter fun a => !namesClass a && !tellsBreakpoint a) ++
              if attributes.any namesClass || merged ≠ "" then [written] else []
          else attributes) ∧
      (rewriteTag file (.openingTag selfClosing) span (name :: types :: attributes)).2.elements =
        if takenUp then 1 else 0 := by
  intro takenUp merged
  have htaken : isRewritten (attributes.map Role.of) = takenUp := isRewritten_eq attributes
  refine ⟨classNameNode merged (Classes.ofRoles (attributes.map Role.of)).span,
    knownPair?_classNameNode _ _, ?_, ?_⟩
  · rw [rewriteTag]
    cases hrewritten : takenUp with
    | true =>
        rw [rewriteAttributes_of_isRewritten (htaken.trans hrewritten)]
        simp only [isKept_role, ↓reduceIte, merged]
    | false =>
        have hsettled := (isRewritten_eq_false_iff attributes).mp (htaken.trans hrewritten)
        rw [rewriteAttributes_of_settled hsettled]
        rfl
  · rw [rewriteTag, Tally.ofAttributes, htaken]

end Collected

end BreakpointProps.Rewrite
