import BreakpointProps.Proofs.Rewrite.Guard

/-!
Trees that differ only in places and in how literals are written, such as a tree and what is read
back from its text. Whether an element is settled does not depend on either.
-/

namespace BreakpointProps

namespace Script

/-- The label without what only says how a literal is written, or where. -/
def Label.withoutSpelling : Label → Label
  | string value _ => string value none
  | number _ => number ""
  | bigint _ => bigint ""
  | templateText _ cooked => templateText "" cooked
  | markupText _ => markupText ""
  | rest _ => rest 0
  | label => label

namespace Node

mutual

/-- The tree without places and without how its literals are written. -/
def withoutSpelling : Node → Node
  | .mk label _ parts => .mk label.withoutSpelling .nowhere (withoutSpellings parts)

/-- The trees without places and without how their literals are written. -/
def withoutSpellings : List Node → List Node
  | [] => []
  | node :: rest => withoutSpelling node :: withoutSpellings rest

end

@[simp] theorem withoutSpellings_eq_map (nodes : List Node) :
    withoutSpellings nodes = nodes.map withoutSpelling := by
  induction nodes with
  | nil => rfl
  | cons node rest ih => rw [withoutSpellings, ih, List.map_cons]

/-- Are the trees the same up to places and how their literals are written? -/
def Resembles (tree other : Node) : Prop := tree.withoutSpelling = other.withoutSpelling

instance (tree other : Node) : Decidable (tree.Resembles other) :=
  inferInstanceAs (Decidable (_ = _))

end Node

end Script

namespace Rewrite

open Script

/-- The role without the class list and its place. -/
def Role.withoutValue : Role → Role
  | staticBreakpoint b _ => staticBreakpoint b ""
  | staticClassName _ _ => staticClassName "" .nowhere
  | role => role

theorem Role.isStaticBreakpoint_withoutValue (role : Role) :
    role.withoutValue.isStaticBreakpoint = role.isStaticBreakpoint := by
  cases role <;> rfl

theorem Role.withoutValue_eq_dynamicClassName_iff (role : Role) :
    role.withoutValue = .dynamicClassName ↔ role = .dynamicClassName := by
  cases role <;> simp [Role.withoutValue]

theorem isSome_staticText?_withoutSpelling (node : Node) :
    (staticText? node.withoutSpelling).isSome = (staticText? node).isSome := by
  obtain ⟨label, span, parts⟩ := node
  cases label with
  | template =>
      match parts with
      | [] => rfl
      | .mk inner _ _ :: more => cases inner <;> cases more <;> rfl
  | _ => rfl

theorem isSome_staticValue?_withoutSpelling (node : Node) :
    (staticValue? node.withoutSpelling).isSome = (staticValue? node).isSome := by
  obtain ⟨label, span, parts⟩ := node
  cases label with
  | container =>
      match parts with
      | [] => rfl
      | [inner] => exact isSome_staticText?_withoutSpelling inner
      | _ :: _ :: _ => rfl
  | _ => rfl

/-- What an attribute is to its element does not depend on how its value is written. -/
theorem role_withoutSpelling (node : Node) :
    (Role.of node.withoutSpelling).withoutValue = (Role.of node).withoutValue := by
  obtain ⟨label, span, parts⟩ := node
  cases label with
  | «attribute» =>
      match parts with
      | [] => rfl
      | .mk inner place rest :: more =>
          cases inner with
          | name text =>
              match more with
              | [] => rfl
              | [value] =>
                  have hvalue := isSome_staticValue?_withoutSpelling value
                  simp only [Node.withoutSpelling, Node.withoutSpellings, Label.withoutSpelling,
                    Role.of]
                  cases hold : staticValue? value <;>
                    cases hnew : staticValue? value.withoutSpelling <;>
                    simp only [hold, hnew, Option.isSome_none, Option.isSome_some,
                      Bool.true_eq_false, Bool.false_eq_true] at hvalue
                  · rfl
                  · split
                    · rfl
                    · cases Breakpoint.ofName? text <;> rfl
              | _ :: _ :: _ => rfl
          | _ => rfl
  | _ => rfl

theorem isSettled_map_withoutSpelling_iff (attributes : List Node) :
    IsSettled (attributes.map Node.withoutSpelling) ↔ IsSettled attributes := by
  have hstatic : ∀ a, (Role.of (Node.withoutSpelling a)).isStaticBreakpoint =
      (Role.of a).isStaticBreakpoint := by
    intro a
    rw [← Role.isStaticBreakpoint_withoutValue, role_withoutSpelling,
      Role.isStaticBreakpoint_withoutValue]
  have hdynamic : ∀ a, Role.of (Node.withoutSpelling a) = .dynamicClassName ↔
      Role.of a = .dynamicClassName := by
    intro a
    rw [← Role.withoutValue_eq_dynamicClassName_iff, role_withoutSpelling,
      Role.withoutValue_eq_dynamicClassName_iff]
  have hexists : ∀ p : Node → Prop,
      (∃ a ∈ attributes.map Node.withoutSpelling, p a) ↔ ∃ a ∈ attributes, p a.withoutSpelling := by
    simp
  simp only [IsSettled, hexists, hstatic, hdynamic]

theorem ownAttributes_withoutSpelling (label : Label) (parts : List Node) :
    ownAttributes label.withoutSpelling (parts.map Node.withoutSpelling) =
      (ownAttributes label parts).map (List.map Node.withoutSpelling) := by
  cases label with
  | openingTag closing =>
      match parts with
      | [] | [_] => rfl
      | _ :: _ :: _ => rfl
  | _ => rfl

theorem isTypeLevel_withoutSpelling (label : Label) :
    isTypeLevel label.withoutSpelling = isTypeLevel label := by
  cases label <;> rfl

theorem tagAttributes_withoutSpelling (tree : Node) :
    tagAttributes tree.withoutSpelling =
      (tagAttributes tree).map (List.map Node.withoutSpelling) := by
  induction tree using Node.partsInduction with
  | mk label span parts ih =>
      rw [Node.withoutSpelling, tagAttributes, tagAttributes, isTypeLevel_withoutSpelling]
      split
      · rfl
      · simp only [Node.withoutSpellings_eq_map, tagAttributesIn_eq_flatMap,
          ownAttributes_withoutSpelling, List.map_append, List.map_flatMap, List.flatMap_map]
        rw [List.flatMap_def, List.map_congr_left ih, List.flatMap_def]

/-- The normal form does not depend on places and on how literals are written. -/
theorem isNormal_iff_of_resembles {tree other : Node} (hsame : tree.Resembles other) :
    IsNormal tree ↔ IsNormal other := by
  have hspelling : ∀ node, IsNormal (Node.withoutSpelling node) ↔ IsNormal node := by
    intro node
    simp [IsNormal, tagAttributes_withoutSpelling, isSettled_map_withoutSpelling_iff]
  rw [← hspelling tree, hsame, hspelling other]

/-- Nothing comes of a source whose tree is in normal form. -/
theorem rewriteSource_of_isNormal (config : Config) (id : String) {source : String}
    {reading : Reading} (hread : Script.read (ModuleId.dialect id) (withoutMark source) = .ok reading)
    (hnormal : IsNormal reading.tree) : (rewriteSource config id source).result = .ok none := by
  have hnone := elements_eq_zero_of_isNormal id hnormal
  unfold rewriteSource rewriteSourceWith
  simp [hread, hnone]

theorem hook_of_rewriteSource_eq_none {config : Config} {id source : String}
    (hnone : (rewriteSource config id source).result = .ok none) :
    (hook config id source).result = none := by
  rw [rewriteSource] at hnone
  unfold hook hookWith
  split
  · rfl
  · simp [hnone]

/-- Rewriting settles every element that is looked at, wherever it stands in the tree. Rewriting the
tree again changes nothing, and neither does rewriting the text of the tree, as long as what is read
from the text is the tree up to places, comments and the spelling of literals. -/
theorem rewriting_settles (file : String) (tree : Node) :
    (∀ attributes ∈ tagAttributes (rewritten file tree),
      (∃ a ∈ attributes, (Role.of a).isStaticBreakpoint) →
        ∃ a ∈ attributes, Role.of a = .dynamicClassName) ∧
    (∀ other, rewritten other (rewritten file tree) = rewritten file tree ∧
      (rewriteNode other (rewritten file tree)).2.elements = 0) ∧
    ∀ (config : Config) (source : String) (output : Output) (comments : List AttachedComment)
      (reread : Reading),
      Script.read (ModuleId.dialect file) (withoutMark source) = .ok ⟨tree, comments⟩ →
      (rewriteSource config file source).result = .ok (some output) →
      Script.read (ModuleId.dialect file) (withoutMark output.code) = .ok reread →
      reread.tree.Resembles (rewritten file tree) →
      (rewriteSource config file output.code).result = .ok none ∧
        (hook config file output.code).result = none := by
  have hnormal := isNormal_rewritten file tree
  refine ⟨hnormal, ?_, ?_⟩
  · intro other
    exact ⟨rewritten_of_isNormal other hnormal, elements_eq_zero_of_isNormal other hnormal⟩
  · intro config source output comments reread _ _ hreread hsame
    have hagain := rewriteSource_of_isNormal config file hreread
      ((isNormal_iff_of_resembles hsame).mpr hnormal)
    exact ⟨hagain, hook_of_rewriteSource_eq_none hagain⟩

/-- An element inside an attribute is rewritten, and the one around it keeps a known class list of a
breakpoint beside a class list that is not known. Rewriting the text again gives nothing. -/
theorem rewriting_settles_nested :
    let config : Config := { extensions := ["jsx"], sourceMaps := false, mode := .production }
    let source := "<a b=\x7b<i sm='x'/>\x7dsm='x'className=\x7bc\x7d/>"
    let output : Output :=
      ⟨"<a b=\x7b<i className=\"sm:x\"/>\x7d sm='x' className=\x7bc\x7d/>;\n", none, 1⟩
    (rewriteSource config "a.jsx" source).result = .ok (some output) ∧
      (rewriteSource config "a.jsx" output.code).result = .ok none ∧
      (hook config "a.jsx" output.code).result = none := by
  intro config source output
  have hresult : (rewriteSource config "a.jsx" source).result.toOption = some (some output) := by
    decide +kernel
  have htrees :
      (Script.read (ModuleId.dialect "a.jsx") (withoutMark source)).toOption.any (fun reading =>
        (Script.read (ModuleId.dialect "a.jsx") (withoutMark output.code)).toOption.any fun reread =>
          decide (reread.tree.Resembles (rewritten "a.jsx" reading.tree))) = true := by
    decide +kernel
  obtain ⟨reading, hread, hrest⟩ := (Option.any_eq_true _ _).mp htrees
  obtain ⟨reread, hreread, hresembles⟩ := (Option.any_eq_true _ _).mp hrest
  have hrewritten := eq_ok_of_toOption hresult
  exact ⟨hrewritten, (rewriting_settles "a.jsx" reading.tree).2.2 config source output
    reading.comments reread (eq_ok_of_toOption hread) hrewritten
    (eq_ok_of_toOption hreread) (of_decide_eq_true hresembles)⟩

end Rewrite
end BreakpointProps
