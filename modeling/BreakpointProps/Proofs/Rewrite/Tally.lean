import Mathlib.Algebra.GroupWithZero.Nat
import BreakpointProps.Proofs.Rewrite.NormalForm

/-!
How many elements are rewritten in a tree. Rewriting what stands inside a tag never changes whether
the tag is rewritten, so the number can be read off the tree as it was.
-/

namespace BreakpointProps.Rewrite

open Script

@[simp] theorem Tally.elements_append (a b : Tally) :
    (a ++ b).elements = a.elements + b.elements := rfl

theorem Tally.elements_foldr (tallies : List Tally) :
    (tallies.foldr (· ++ ·) ({} : Tally)).elements = (tallies.map Tally.elements).sum := by
  induction tallies with
  | nil => rfl
  | cons tally rest ih => simp [ih]

/-- The order in which the parts are looked at does not matter for the number of elements. -/
theorem Tally.elements_ofParts (label : Label) (tallies : List Tally) :
    (Tally.ofParts label tallies).elements = (tallies.map Tally.elements).sum := by
  rw [Tally.ofParts, Tally.elements_foldr]
  split
  · rw [List.map_reverse, List.sum_reverse]
  · rfl

theorem ownAttributes_map_rewritten (file : String) (label : Label) (parts : List Node) :
    ownAttributes label (parts.map (rewritten file)) =
      (ownAttributes label parts).map (List.map (rewritten file)) := by
  cases label with
  | openingTag closing =>
      match parts with
      | [] | [_] => rfl
      | _ :: _ :: _ => rfl
  | _ => rfl

theorem elements_rewriteTag (file : String) (label : Label) (span : Span) (parts : List Node) :
    (rewriteTag file label span parts).2.elements =
      (ownAttributes label parts).countP fun attributes =>
        isRewritten (attributes.map Role.of) := by
  unfold rewriteTag
  split
  · simp [ownAttributes, Tally.ofAttributes, List.countP_singleton]
  · rename_i hother
    rw [ownAttributes]
    · rfl
    · exact hother

/-- The number of rewritten elements is the number of tags, at any depth of the tree as it was, that
have a known class list of a breakpoint and no class list that is not known. -/
theorem elements_rewriteNode (file : String) (tree : Node) :
    (rewriteNode file tree).2.elements =
      (tagAttributes tree).countP fun attributes => isRewritten (attributes.map Role.of) := by
  induction tree using Node.partsInduction with
  | mk label span parts ih =>
      rw [rewriteNode, tagAttributes]
      split
      · rfl
      · have hinner : (parts.map fun p => (rewriteNode file p).2.elements).sum =
            (parts.flatMap tagAttributes).countP fun attributes =>
              isRewritten (attributes.map Role.of) := by
          rw [List.countP_flatMap, List.map_congr_left ih]
          rfl
        have hparts : (parts.map (rewriteNode file)).map Prod.fst = parts.map (rewritten file) := by
          rw [List.map_map]
          rfl
        simp only [rewriteNodes_eq_map, tagAttributesIn_eq_flatMap, Tally.elements_append,
          Tally.elements_ofParts, elements_rewriteTag, hparts, ownAttributes_map_rewritten,
          List.countP_append, List.countP_map, ← hinner, List.map_map, Function.comp_def,
          role_rewritten]

/-- No element is rewritten in a tree in normal form. -/
theorem elements_eq_zero_of_isNormal (file : String) {tree : Node} (hnormal : IsNormal tree) :
    (rewriteNode file tree).2.elements = 0 := by
  rw [elements_rewriteNode, List.countP_eq_zero]
  intro attributes hattributes
  rw [Bool.not_eq_true]
  exact (isRewritten_eq_false_iff attributes).mpr (hnormal attributes hattributes)

end BreakpointProps.Rewrite
