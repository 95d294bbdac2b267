import BreakpointProps.Proofs.Rewrite.Roles
import BreakpointProps.Rewrite.Tree

/-!
Rewriting brings a tree into a normal form: every element that is looked at is settled. A tree in
normal form is left as it is, so rewriting twice is rewriting once.
-/

namespace BreakpointProps

namespace Script.Node

/-- What holds of a node if it holds of its parts holds of every node. -/
theorem partsInduction {motive : Node → Prop}
    (mk : ∀ label span parts, (∀ p ∈ parts, motive p) → motive (.mk label span parts)) :
    ∀ node, motive node
  | .mk label span parts => mk label span parts fun p _ => partsInduction mk p
termination_by node => node

end Script.Node

namespace Rewrite

open Script

/-- The attributes that a node has itself, if it is an opening tag. -/
def ownAttributes : Label → List Node → List (List Node)
  | .openingTag _, _ :: _ :: attributes => [attributes]
  | _, _ => []

mutual

/-- The attributes of every opening tag that is looked at in a tree, a list for each tag. Tags
inside others come first. -/
def tagAttributes : Node → List (List Node)
  | .mk label _ parts =>
    if isTypeLevel label then [] else tagAttributesIn parts ++ ownAttributes label parts

/-- The attributes of every opening tag that is looked at in trees. -/
def tagAttributesIn : List Node → List (List Node)
  | [] => []
  | node :: rest => tagAttributes node ++ tagAttributesIn rest

end

@[simp] theorem tagAttributesIn_eq_flatMap (nodes : List Node) :
    tagAttributesIn nodes = nodes.flatMap tagAttributes := by
  induction nodes with
  | nil => rfl
  | cons node rest ih => rw [tagAttributesIn, ih, List.flatMap_cons]

theorem mem_tagAttributes_mk {label : Label} {span : Span} {parts : List Node}
    {attributes : List Node} :
    attributes ∈ tagAttributes (.mk label span parts) ↔
      isTypeLevel label = false ∧
        ((∃ p ∈ parts, attributes ∈ tagAttributes p) ∨
          attributes ∈ ownAttributes label parts) := by
  rw [tagAttributes]
  cases isTypeLevel label <;> simp

/-- Every element that is looked at is settled. -/
def IsNormal (tree : Node) : Prop := ∀ attributes ∈ tagAttributes tree, IsSettled attributes

/-- The tree that a tree is rewritten to. -/
def rewritten (file : String) (tree : Node) : Node := (rewriteNode file tree).1

@[simp] theorem rewriteNodes_eq_map (file : String) (nodes : List Node) :
    rewriteNodes file nodes = nodes.map (rewriteNode file) := by
  induction nodes with
  | nil => rfl
  | cons node rest ih => rw [rewriteNodes, ih, List.map_cons]

/-- The parts of a node after those parts were rewritten and then, if the node is an opening tag,
its attributes. -/
def tagParts : Label → List Node → List Node
  | .openingTag _, name :: types :: attributes => name :: types :: rewriteAttributes attributes
  | _, parts => parts

theorem rewriteTag_fst (file : String) (label : Label) (span : Span) (parts : List Node) :
    (rewriteTag file label span parts).1 = .mk label span (tagParts label parts) := by
  unfold rewriteTag
  split
  · rfl
  · rename_i hother
    rw [tagParts]
    exact hother

theorem rewritten_mk (file : String) (label : Label) (span : Span) (parts : List Node) :
    rewritten file (.mk label span parts) =
      .mk label span
        (if isTypeLevel label then parts else tagParts label (parts.map (rewritten file))) := by
  rw [rewritten, rewriteNode]
  split
  · rfl
  · simp only [rewriteNodes_eq_map, List.map_map, rewriteTag_fst]
    rfl

theorem staticText?_rewritten (file : String) (node : Node) :
    staticText? (rewritten file node) = staticText? node := by
  obtain ⟨label, span, parts⟩ := node
  rw [rewritten_mk]
  cases label with
  | template =>
      match parts with
      | [] => rfl
      | .mk inner place rest :: more =>
          simp only [isTypeLevel, tagParts, List.map_cons, rewritten_mk]
          cases inner <;> cases more <;> rfl
  | _ => rfl

theorem staticValue?_rewritten (file : String) (node : Node) :
    staticValue? (rewritten file node) = staticValue? node := by
  obtain ⟨label, span, parts⟩ := node
  rw [rewritten_mk]
  cases label with
  | container =>
      match parts with
      | [] => rfl
      | [inner] => exact staticText?_rewritten file inner
      | _ :: _ :: _ => rfl
  | _ => rfl

/-- Rewriting what stands inside an attribute does not change what the attribute is to its element. -/
@[simp] theorem role_rewritten (file : String) (node : Node) :
    Role.of (rewritten file node) = Role.of node := by
  obtain ⟨label, span, parts⟩ := node
  rw [rewritten_mk]
  cases label with
  | «attribute» =>
      match parts with
      | [] => rfl
      | .mk inner place rest :: more =>
          simp only [isTypeLevel, tagParts, List.map_cons, rewritten_mk]
          cases inner with
          | name text =>
              match more with
              | [] => rfl
              | [value] =>
                  simp only [Bool.false_eq_true, ↓reduceIte, List.map_cons, List.map_nil, Role.of,
                    staticValue?_rewritten]
              | _ :: _ :: _ => rfl
          | _ => rfl
  | _ => rfl

/-- No tag stands in the attribute that is made for a class list. -/
@[simp] theorem tagAttributes_classNameNode (value : String) (span : Span) :
    tagAttributes (classNameNode value span) = [] := by
  by_cases hcontainer : needsContainer value <;>
    simp [classNameNode, hcontainer, tagAttributes, isTypeLevel, Node.leaf, ownAttributes]

/-- A part of a rewritten tag in which a tag stands was a part of it before. -/
theorem mem_of_mem_tagParts {label : Label} {parts : List Node} {p : Node}
    (hp : p ∈ tagParts label parts) {tag : List Node} (htag : tag ∈ tagAttributes p) :
    p ∈ parts := by
  unfold tagParts at hp
  split at hp
  · simp only [List.mem_cons] at hp ⊢
    rcases hp with hname | htypes | hattribute
    · exact Or.inl hname
    · exact Or.inr (Or.inl htypes)
    · rcases mem_rewriteAttributes hattribute with hold | ⟨value, span, rfl⟩
      · exact Or.inr (Or.inr hold)
      · simp at htag
  · exact hp

theorem isSettled_of_mem_ownAttributes_tagParts {label : Label} {parts attributes : List Node}
    (hown : attributes ∈ ownAttributes label (tagParts label parts)) : IsSettled attributes := by
  unfold tagParts at hown
  split at hown
  · rw [ownAttributes, List.mem_singleton] at hown
    rw [hown]
    exact isSettled_rewriteAttributes _
  · rename_i hother
    rw [ownAttributes] at hown
    · simp at hown
    · exact hother

/-- Rewriting gives a tree in normal form. -/
theorem isNormal_rewritten (file : String) (tree : Node) : IsNormal (rewritten file tree) := by
  induction tree using Node.partsInduction with
  | mk label span parts ih =>
      intro attributes hattributes
      rw [rewritten_mk, mem_tagAttributes_mk] at hattributes
      obtain ⟨hlevel, hplace⟩ := hattributes
      simp only [hlevel, Bool.false_eq_true, ↓reduceIte] at hplace
      rcases hplace with ⟨p, hp, hinner⟩ | hown
      · obtain ⟨old, hold, rfl⟩ := List.mem_map.mp (mem_of_mem_tagParts hp hinner)
        exact ih old hold attributes hinner
      · exact isSettled_of_mem_ownAttributes_tagParts hown

theorem tagParts_of_settled {label : Label} {parts : List Node}
    (hsettled : ∀ attributes ∈ ownAttributes label parts, IsSettled attributes) :
    tagParts label parts = parts := by
  unfold tagParts
  split
  · rw [rewriteAttributes_of_settled (hsettled _ (by simp [ownAttributes]))]
  · rfl

/-- A tree in normal form is left as it is. -/
theorem rewritten_of_isNormal (file : String) {tree : Node} (hnormal : IsNormal tree) :
    rewritten file tree = tree := by
  induction tree using Node.partsInduction with
  | mk label span parts ih =>
      rw [rewritten_mk]
      cases hlevel : isTypeLevel label with
      | true => rfl
      | false =>
          have hparts : parts.map (rewritten file) = parts := by
            rw [List.map_congr_left (g := id), List.map_id]
            intro p hp
            apply ih p hp
            intro attributes hinner
            exact hnormal _ (mem_tagAttributes_mk.mpr ⟨hlevel, Or.inl ⟨p, hp, hinner⟩⟩)
          have hown : tagParts label parts = parts := by
            apply tagParts_of_settled
            intro attributes hown
            exact hnormal _ (mem_tagAttributes_mk.mpr ⟨hlevel, Or.inr hown⟩)
          simp [hparts, hown]

end Rewrite
end BreakpointProps
