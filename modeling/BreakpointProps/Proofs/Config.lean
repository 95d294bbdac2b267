import Mathlib.Data.List.Basic
import BreakpointProps.Config

/-!
Joining settings. What is accepted is the union of both sides, with the extensions in the order in which they
first come, so it does not matter how several settings are bracketed.
-/

namespace BreakpointProps.Config

section Extensions

/-- One more extension goes to the end unless it is there. -/
def addExtension (known : List String) (extension : String) : List String :=
  if known.contains extension then known else known ++ [extension]

theorem addExtensions_append_singleton (known added : List String) (extension : String) :
    addExtensions known (added ++ [extension]) = addExtension (addExtensions known added) extension := by
  rw [addExtensions, List.foldl_append]
  rfl

theorem addExtensions_cons (known added : List String) (extension : String) :
    addExtensions known (extension :: added) = addExtensions (addExtension known extension) added := rfl

/-- What is added comes behind what was known: each new extension once, in the order of their first coming. -/
theorem addExtensions_eq (known added : List String) :
    addExtensions known added = known ++ (added.filter (· ∉ known)).eraseDups := by
  induction added generalizing known with
  | nil => exact (List.append_nil known).symm
  | cons extension rest ih =>
      rw [addExtensions_cons, addExtension, List.contains_eq_mem]
      by_cases hknown : extension ∈ known
      · rw [if_pos (decide_eq_true hknown), ih, List.filter_cons_of_neg (by simpa using hknown)]
      · have hlater : (rest.filter (· ∉ known ++ [extension])) =
            (rest.filter (· ∉ known)).filter fun other => !other == extension := by
          rw [List.filter_filter]
          refine List.filter_congr fun other _ => ?_
          by_cases hother : other = extension <;> simp [hother]
        rw [if_neg (by simpa using hknown), ih, List.filter_cons_of_pos (by simpa using hknown),
          List.eraseDups_cons, hlater, List.append_assoc, List.singleton_append]

theorem mem_addExtensions_iff {known added : List String} {extension : String} :
    extension ∈ addExtensions known added ↔ extension ∈ known ∨ extension ∈ added := by
  rw [addExtensions_eq, List.mem_append, List.mem_eraseDups, List.mem_filter, decide_eq_true_eq]
  by_cases hknown : extension ∈ known <;> simp [hknown]

theorem addExtensions_of_subset {known added : List String} (hadded : added ⊆ known) :
    addExtensions known added = known := by
  have hnone : added.filter (· ∉ known) = [] :=
    List.filter_eq_nil_iff.mpr fun extension hmem => by simpa using hadded hmem
  rw [addExtensions_eq, hnone]
  exact List.append_nil known

/-- It does not matter whether an extension is added before or after the list that it stands in is added. -/
theorem addExtensions_addExtension (known added : List String) (extension : String) :
    addExtensions known (addExtension added extension) =
      addExtension (addExtensions known added) extension := by
  by_cases hadded : extension ∈ added
  · have hboth : extension ∈ addExtensions known added := mem_addExtensions_iff.mpr (Or.inr hadded)
    simp only [addExtension, List.contains_eq_mem, hadded, hboth, decide_true, if_true]
  · rw [addExtension, List.contains_eq_mem, if_neg (by simpa using hadded), addExtensions_append_singleton]

theorem addExtensions_addExtensions (first second third : List String) :
    addExtensions first (addExtensions second third) =
      addExtensions (addExtensions first second) third := by
  induction third generalizing second with
  | nil => rfl
  | cons extension rest ih =>
      rw [addExtensions_cons, ih, addExtensions_addExtension, addExtensions_cons]

end Extensions

section Merge

variable {config : Config}

theorem merge_assoc (first second third : Config) :
    (first.merge second).merge third = first.merge (second.merge third) := by
  simp only [merge, mk.injEq]
  refine ⟨(addExtensions_addExtensions _ _ _).symm, Bool.and_assoc _ _ _, ?_⟩
  by_cases hthird : third.mode.isDevelopment = true <;> simp [hthird]

theorem merge_self (config : Config) : config.merge config = config := by
  rw [merge, addExtensions_of_subset (List.Subset.refl _), Bool.and_self, ite_self]

theorem acceptsExtension_merge (config other : Config) (extension : String) :
    (config.merge other).acceptsExtension extension =
      (config.acceptsExtension extension || other.acceptsExtension extension) := by
  rw [Bool.eq_iff_iff, Bool.or_eq_true]
  simp only [acceptsExtension, List.contains_iff_mem]
  exact mem_addExtensions_iff

theorem isDevelopment_merge (config other : Config) :
    (config.merge other).mode.isDevelopment = (config.mode.isDevelopment || other.mode.isDevelopment) := by
  rw [merge]
  cases config.mode <;> cases other.mode <;> rfl

theorem isBadExtension_iff {extension : String} :
    isBadExtension extension = true ↔ extension = "" ∨ ['.'] <+: extension.toList := by
  rw [isBadExtension, Bool.or_eq_true, String.isEmpty_iff, beq_iff_eq]
  cases extension.toList with
  | nil => simp
  | cons c rest => simp [eq_comm]

theorem flaw?_eq_none_iff :
    config.flaw? = none ↔
      config.extensions ≠ [] ∧ ∀ extension ∈ config.extensions, isBadExtension extension = false := by
  unfold flaw?
  by_cases hempty : config.extensions = []
  · simp [hempty]
  · rw [if_neg (by simpa using hempty), Option.map_eq_none_iff, List.find?_eq_none]
    simp [hempty]

/-- Settings are joined the same way however they are bracketed, and joined with themselves they stay as they
are. Both sides count for what is accepted, for the maps and for the mode; the extensions of the second side
that the first one lacks come behind those of the first, each once, in the order in which they first
come. Joined settings are without a flaw exactly if one side has an extension and no side has a bad one. -/
theorem merge_joins :
    (∀ first second third : Config,
      (first.merge second).merge third = first.merge (second.merge third)) ∧
    (∀ config : Config, config.merge config = config) ∧
    ∀ config other : Config,
      (config.merge other).extensions =
          config.extensions ++ (other.extensions.filter (· ∉ config.extensions)).eraseDups ∧
        (∀ extension, (config.merge other).acceptsExtension extension = true ↔
          config.acceptsExtension extension = true ∨ other.acceptsExtension extension = true) ∧
        ((config.merge other).sourceMaps = true ↔ config.sourceMaps = true ∧ other.sourceMaps = true) ∧
        ((config.merge other).mode = .development ↔
          config.mode = .development ∨ other.mode = .development) ∧
        ((config.merge other).flaw? = none ↔
          (config.extensions ≠ [] ∨ other.extensions ≠ []) ∧
            ∀ extension, extension ∈ config.extensions ∨ extension ∈ other.extensions →
              extension ≠ "" ∧ ¬ ['.'] <+: extension.toList) := by
  refine ⟨merge_assoc, merge_self, fun config other => ⟨addExtensions_eq _ _, fun extension => ?_, ?_, ?_, ?_⟩⟩
  · rw [acceptsExtension_merge, Bool.or_eq_true]
  · exact Bool.and_eq_true_iff
  · have hmode := isDevelopment_merge config other
    rw [Bool.eq_iff_iff, Bool.or_eq_true] at hmode
    simpa only [Mode.isDevelopment, beq_iff_eq] using hmode
  · have hempty : (config.merge other).extensions ≠ [] ↔ config.extensions ≠ [] ∨ other.extensions ≠ [] := by
      simp only [ne_eq, List.eq_nil_iff_forall_not_mem, merge, mem_addExtensions_iff, not_or, forall_and,
        not_and_or]
    rw [flaw?_eq_none_iff, hempty]
    refine and_congr_right fun _ => forall_congr' fun extension => ?_
    rw [← Bool.not_eq_true, isBadExtension_iff, not_or]
    exact imp_congr_left mem_addExtensions_iff

end Merge

/-- Repeats on both sides: those of the first side stay, and of the second side each new extension comes once. -/
example : (Config.mk ["js", "js"] true .production).merge ⟨["ts", "js", "tsx", "ts"], false, .development⟩ =
    ⟨["js", "js", "ts", "tsx"], false, .development⟩ := by decide

end BreakpointProps.Config
