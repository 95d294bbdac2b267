import Mathlib.Data.List.Basic
import BreakpointProps.Build.Selection
import BreakpointProps.Proofs.Glob.Spelling

/-!
What is selected for a build: no path twice, however it is spelled, and only files with which the policy
agrees.
-/

namespace BreakpointProps

namespace Selection

/-- What is selected so far is what may be selected, and no path is there twice. -/
structure IsSound (rules : Rules) (selection : Selection) : Prop where
  distinct : selection.chosen.Pairwise fun a b => a.1.components ≠ b.1.components
  allowed : ∀ entry ∈ selection.chosen, rules.leavesOut entry.1 = false ∧
    rules.policy.inputViolation? rules.files entry.1 = none

section Invariant

variable {engine : Glob.Engine} {rules : Rules} {selection : Selection}

theorem contains_iff {path : Path} :
    selection.contains path = true ↔ ∃ entry ∈ selection.chosen, entry.1.components = path.components := by
  simp [contains]

theorem IsSound.consider (hsound : IsSound rules selection) (path : Path) :
    IsSound rules (selection.consider rules path) := by
  unfold Selection.consider
  split
  · exact hsound
  · rename_i hkept
    split
    · exact ⟨hsound.distinct, hsound.allowed⟩
    · rename_i hallowed
      split
      · exact hsound
      · rename_i hnew
        rw [contains_iff] at hnew
        constructor
        · refine List.pairwise_append.mpr ⟨hsound.distinct, List.pairwise_singleton _ _, ?_⟩
          intro entry hentry last hlast hsame
          obtain rfl := List.mem_singleton.mp hlast
          exact hnew ⟨entry, hentry, hsame⟩
        · intro entry hentry
          rcases List.mem_append.mp hentry with hold | hlast
          · exact hsound.allowed entry hold
          · obtain rfl := List.mem_singleton.mp hlast
            exact ⟨Bool.eq_false_iff.mpr hkept, hallowed⟩

theorem IsSound.considerAll (hsound : IsSound rules selection) (found : List Glob.Finding) :
    IsSound rules (selection.considerAll rules found).1 := by
  induction found generalizing selection with
  | nil => exact hsound
  | cons finding rest ih =>
      cases finding with
      | error directory => exact hsound
      | ok path => exact ih (hsound.consider path)

theorem IsSound.considerPatterns (hsound : IsSound rules selection) (patterns : List String) :
    IsSound rules (selection.considerPatterns engine rules patterns).1 := by
  induction patterns generalizing selection with
  | nil => exact hsound
  | cons text rest ih =>
      rw [Selection.considerPatterns]
      cases engine.expand rules.files text with
      | error flaw => exact hsound
      | ok found =>
          have hall := hsound.considerAll found
          cases hfound : selection.considerAll rules found with
          | mk considered failure? =>
              rw [hfound] at hall
              cases failure? with
              | some failure => simpa only [hfound] using hall
              | none => simpa only [hfound] using ih hall

end Invariant

/-- What holds of the paths that are selected for a build. -/
theorem select_sound {files : FileSystem} {policy : Policy} {patterns excludes : List String}
    {chosen : List (Path × Nat)} (hselect : (select files policy patterns excludes).result = .ok chosen) :
    chosen.Pairwise (fun a b => a.1.components ≠ b.1.components) ∧
      ∀ entry ∈ chosen, files.isDirectory entry.1 = false ∧
        policy.inputViolation? files entry.1 = none := by
  unfold select selectBy at hselect
  split at hselect
  · exact absurd hselect nofun
  · rename_i fits _
    have hsound : IsSound ⟨files, policy, fits⟩ (considerPatterns .standard ⟨files, policy, fits⟩ {} patterns).1 :=
      IsSound.considerPatterns ⟨List.Pairwise.nil, fun _ hentry => absurd hentry List.not_mem_nil⟩ patterns
    split at hselect
    · exact absurd hselect nofun
    · rename_i selection hconsidered
      obtain rfl := Except.ok.inj hselect
      rw [hconsidered] at hsound
      refine ⟨hsound.distinct, fun entry hentry => ?_⟩
      obtain ⟨hkept, hallowed⟩ := hsound.allowed entry hentry
      exact ⟨(Bool.or_eq_false_iff.mp hkept).2, hallowed⟩

/-- A selected path leads to something that is no directory. -/
theorem exists_nodeAt_of_select {files : FileSystem} {policy : Policy} {patterns excludes : List String}
    {chosen : List (Path × Nat)} (hselect : (select files policy patterns excludes).result = .ok chosen)
    {entry : Path × Nat} (hentry : entry ∈ chosen) :
    ∃ place node, files.place entry.1 = .ok place ∧ files.node? place = some node ∧
      node ≠ .directory := by
  obtain ⟨hdirectory, hallowed⟩ := (select_sound hselect).2 entry hentry
  have hsize := (Option.or_eq_none_iff.mp hallowed).2
  unfold Policy.sizeViolation? FileSystem.sizeAt at hsize
  unfold FileSystem.isDirectory at hdirectory
  cases hnode : files.nodeAt entry.1 with
  | error fault =>
      rw [hnode] at hsize
      exact absurd hsize (by simp [bind, Except.bind])
  | ok node =>
      rw [hnode] at hdirectory
      have hother : node ≠ .directory := fun h => by simp [h] at hdirectory
      unfold FileSystem.nodeAt at hnode
      cases hplace : files.place entry.1 with
      | error fault =>
          rw [hplace] at hnode
          exact absurd hnode nofun
      | ok place =>
          rw [hplace] at hnode
          cases hthere : files.node? place with
          | none => simp [bind, Except.bind, hthere] at hnode
          | some found =>
              simp only [bind, Except.bind, hthere, Except.ok.injEq] at hnode
              exact ⟨place, found, rfl, hthere, hnode ▸ hother⟩

/-- A pattern that spells a path of names adds the path. -/
theorem considerPatterns_of_isSpelling {rules : Rules} {selection : Selection} {text : String}
    {rest : List String} (htext : Glob.isSpelling text = true)
    (hleads : Glob.leadsAlong rules.files ⟨"."⟩ (Glob.names text) = true) :
    selection.considerPatterns .standard rules (text :: rest) =
      (selection.consider rules (Glob.spelled text)).considerPatterns .standard rules rest := by
  have hexpand := Glob.expand_of_isSpelling FileSystem.list htext hleads
  rw [considerPatterns, Glob.Engine.standard, hexpand]
  rfl

/-- Patterns that spell paths of names select by a decision on each of the paths. -/
theorem select_of_isSpelling {files : FileSystem} {policy : Policy} {patterns : List String}
    (htexts : ∀ text ∈ patterns, Glob.isSpelling text = true ∧
      Glob.leadsAlong files ⟨"."⟩ (Glob.names text) = true) :
    (select files policy patterns []).result =
      .ok ((patterns.map Glob.spelled).foldl (consider ⟨files, policy, []⟩) {}).chosen := by
  have hpatterns : ∀ selection : Selection, considerPatterns .standard ⟨files, policy, []⟩ selection patterns =
      ((patterns.map Glob.spelled).foldl (consider ⟨files, policy, []⟩) selection, none) := by
    induction patterns with
    | nil => exact fun _ => rfl
    | cons text rest ih =>
        intro selection
        obtain ⟨htext, hleads⟩ := htexts text List.mem_cons_self
        rw [considerPatterns_of_isSpelling htext hleads]
        exact ih (fun text htext => htexts text (List.mem_cons_of_mem _ htext)) _
  have hexcludes : ([] : List String).mapM Glob.Engine.standard.fits = .ok [] := rfl
  rw [select, selectBy, hexcludes]
  simp only [hpatterns]

end Selection

end BreakpointProps
