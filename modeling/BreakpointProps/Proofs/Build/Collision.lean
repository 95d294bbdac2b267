import BreakpointProps.Proofs.Build.Selection
import BreakpointProps.Proofs.Path.Output

/-!
When two results of a build have the same place. Steps to a parent do not count for the place of a
result, so files of different directories may meet, and a file may be called what the source map of
another is called. Paths that are spelled alike never meet.
-/

namespace BreakpointProps

namespace Path

section Results

variable {first second directory workingDirectory : Path}

theorem components_outputFor (input directory workingDirectory : Path) :
    (input.outputFor directory workingDirectory).components =
      directory.components ++ (input.outputNames workingDirectory).map .normal := by
  rw [outputFor_eq, components_join_names fun _ hn => isName_of_mem_outputNames hn]

theorem components_sidecar (input directory workingDirectory : Path) :
    (input.outputFor directory workingDirectory).sidecar.components =
      directory.components ++
        (withEnding (input.outputNames workingDirectory) ".map").map .normal := by
  have hending : IsEnding ".map" := ⟨by decide, by decide⟩
  rw [outputFor_eq, sidecar, extended_join_names hending, components_join_names fun _ hn =>
    isName_of_mem_withEnding (fun _ h => isName_of_mem_outputNames h) hending hn]

theorem behind_inj {names others : List String} :
    directory.components ++ names.map .normal = directory.components ++ others.map .normal ↔
      names = others := by
  rw [List.append_cancel_left_eq]
  exact (List.map_injective_iff.mpr fun _ _ h => Component.normal.inj h).eq_iff

theorem outputFor_eq_outputFor_iff :
    (first.outputFor directory workingDirectory).components =
        (second.outputFor directory workingDirectory).components ↔
      first.outputNames workingDirectory = second.outputNames workingDirectory := by
  rw [components_outputFor, components_outputFor, behind_inj]

theorem outputFor_eq_sidecar_iff :
    (first.outputFor directory workingDirectory).components =
        (second.outputFor directory workingDirectory).sidecar.components ↔
      first.outputNames workingDirectory =
        withEnding (second.outputNames workingDirectory) ".map" := by
  rw [components_outputFor, components_sidecar, behind_inj]

/-- Are two paths spelled in one way: without dots, both from the root or neither, and both from the
working directory or neither? -/
structure SpelledAlike (workingDirectory first second : Path) : Prop where
  plainFirst : ∀ c ∈ first.components, c ≠ .current ∧ c ≠ .parent
  plainSecond : ∀ c ∈ second.components, c ≠ .current ∧ c ≠ .parent
  absolute : first.isAbsolute = second.isAbsolute
  inside : first.startsWith workingDirectory = second.startsWith workingDirectory

theorem eq_map_filterMap_name? {components : List Component}
    (hcomponents : ∀ c ∈ components, c ≠ .root ∧ c ≠ .current ∧ c ≠ .parent) :
    components = (components.filterMap Component.name?).map .normal := by
  rw [← filter_isName, List.filter_eq_self.mpr]
  intro c hc
  obtain ⟨hroot, hcurrent, hparent⟩ := hcomponents c hc
  cases c <;> simp_all [Component.isName]

/-- Without dots, the names of a path tell all of it but whether it starts at the root. -/
theorem components_eq_of_plain {path : Path}
    (hplain : ∀ c ∈ path.components, c ≠ .current ∧ c ≠ .parent) :
    path.components = (if path.isAbsolute then [.root] else []) ++
      (path.components.filterMap Component.name?).map .normal := by
  have hinner : path.inner = (path.inner.filterMap Component.name?).map .normal :=
    eq_map_filterMap_name? fun c hc =>
      ⟨(ne_of_mem_inner hc).1, hplain c (components_eq path ▸ List.mem_append_right _ hc)⟩
  have hlead : path.lead = if path.isAbsolute then [.root] else [] := by
    rcases lead_cases path with ⟨habsolute, hlead⟩ | ⟨habsolute, hlead | hlead⟩
    · simp [habsolute, hlead]
    · exact absurd rfl (hplain .current (by simp [components_eq, hlead])).1
    · simp [habsolute, hlead]
  have hnames : path.components.filterMap Component.name? = path.inner.filterMap Component.name? := by
    rw [components_eq, hlead, List.filterMap_append]
    split <;> simp [Component.name?]
  rw [hnames, ← hinner, ← hlead, components_eq]

theorem components_eq_of_spelledAlike (halike : SpelledAlike workingDirectory first second)
    (hnames : first.outputNames workingDirectory = second.outputNames workingDirectory) :
    first.components = second.components := by
  unfold outputNames remainder at hnames
  rw [← halike.inside] at hnames
  by_cases hinside : first.startsWith workingDirectory = true
  · rw [if_pos hinside] at hnames
    have hprefix := hinside
    have hprefix' := halike.inside ▸ hinside
    rw [startsWith, List.isPrefixOf_iff_prefix] at hprefix hprefix'
    obtain ⟨rest, hrest⟩ := hprefix
    obtain ⟨others, hothers⟩ := hprefix'
    by_cases hempty : workingDirectory.components = []
    · rw [hempty, List.length_nil, List.drop_zero, List.drop_zero] at hnames
      rw [components_eq_of_plain halike.plainFirst, components_eq_of_plain halike.plainSecond, halike.absolute,
        hnames]
    · have hplain : ∀ {path : Path} {left : List Component},
          (∀ c ∈ path.components, c ≠ .current ∧ c ≠ .parent) →
          workingDirectory.components ++ left = path.components →
          left = (left.filterMap Component.name?).map .normal := by
        intro path left hdots hpath
        refine eq_map_filterMap_name? fun c hc => ⟨?_, hdots c (hpath ▸ List.mem_append_right _ hc)⟩
        refine ((isTrail_components path).noLateStart c ?_).1
        rw [← hpath, List.tail_append_of_ne_nil hempty]
        exact List.mem_append_right _ hc
      rw [← hrest, ← hothers, List.drop_left, List.drop_left] at hnames
      rw [← hrest, ← hothers, hplain halike.plainFirst hrest, hplain halike.plainSecond hothers, hnames]
  · rw [if_neg hinside, List.drop_zero, List.drop_zero] at hnames
    rw [components_eq_of_plain halike.plainFirst, components_eq_of_plain halike.plainSecond, halike.absolute,
      hnames]

end Results

end Path

namespace Selection

/-- Of two selected files the results have one place exactly if the names behind the working directory are
the same, and the result for one is in the place of the other's source map exactly if its names are
those of the other with the ending of a source map. Files that are spelled alike have different
results. -/
theorem results_meet_iff {files : FileSystem} {policy : Policy} {patterns excludes : List String}
    {chosen : List (Path × Nat)} (hselect : (select files policy patterns excludes).result = .ok chosen)
    (directory : Path) :
    chosen.Pairwise fun (first, _) (second, _) =>
      first.components ≠ second.components ∧
      ((first.outputFor directory policy.workingDirectory).components =
          (second.outputFor directory policy.workingDirectory).components ↔
        first.outputNames policy.workingDirectory = second.outputNames policy.workingDirectory) ∧
      ((first.outputFor directory policy.workingDirectory).components =
          (second.outputFor directory policy.workingDirectory).sidecar.components ↔
        first.outputNames policy.workingDirectory =
          Path.withEnding (second.outputNames policy.workingDirectory) ".map") ∧
      ((second.outputFor directory policy.workingDirectory).components =
          (first.outputFor directory policy.workingDirectory).sidecar.components ↔
        second.outputNames policy.workingDirectory =
          Path.withEnding (first.outputNames policy.workingDirectory) ".map") ∧
      (Path.SpelledAlike policy.workingDirectory first second →
        (first.outputFor directory policy.workingDirectory).components ≠
          (second.outputFor directory policy.workingDirectory).components) := by
  refine (select_sound hselect).1.imp fun {a b} hother => ?_
  refine ⟨hother, Path.outputFor_eq_outputFor_iff, Path.outputFor_eq_sidecar_iff,
    Path.outputFor_eq_sidecar_iff, fun halike hsame => hother ?_⟩
  exact Path.components_eq_of_spelledAlike halike (Path.outputFor_eq_outputFor_iff.mp hsame)

/-- A file, one below it in the tree, and one that is called like a source map. -/
def crowdedFiles : FileSystem where
  entries := [(["w"], .directory), (["w", "a.jsx"], .file "x".toUTF8), (["w", "s"], .directory),
    (["w", "s", "a.jsx"], .file "y".toUTF8), (["w", "s", "a.jsx.map"], .file "z".toUTF8)]
  workingDirectory := ["w"]

theorem select_crowdedFiles :
    (select crowdedFiles { workingDirectory := ⟨"/w"⟩ } ["s/a.jsx", "s/../a.jsx", "s/a.jsx.map"] []).result =
      .ok [(⟨"s/a.jsx"⟩, 1), (⟨"s/../a.jsx"⟩, 1), (⟨"s/a.jsx.map"⟩, 1)] :=
  (select_of_isSpelling (by decide +kernel)).trans (congrArg Except.ok (by decide +kernel))

/-- The files that are spelled alike have different results. -/
theorem results_meet_iff_crowded :
    (select crowdedFiles { workingDirectory := ⟨"/w"⟩ } ["s/a.jsx", "s/../a.jsx", "s/a.jsx.map"] []).result =
        .ok [(⟨"s/a.jsx"⟩, 1), (⟨"s/../a.jsx"⟩, 1), (⟨"s/a.jsx.map"⟩, 1)] ∧
      Path.SpelledAlike ⟨"/w"⟩ ⟨"s/a.jsx"⟩ ⟨"s/a.jsx.map"⟩ ∧
      ((Path.mk "s/a.jsx").outputFor ⟨"dist"⟩ ⟨"/w"⟩).components ≠
        ((Path.mk "s/a.jsx.map").outputFor ⟨"dist"⟩ ⟨"/w"⟩).components := by
  have halike : Path.SpelledAlike ⟨"/w"⟩ ⟨"s/a.jsx"⟩ ⟨"s/a.jsx.map"⟩ :=
    ⟨by decide +kernel, by decide +kernel, by decide +kernel, by decide +kernel⟩
  have hmeet := List.rel_of_pairwise_cons (results_meet_iff select_crowdedFiles ⟨"dist"⟩)
    (List.mem_cons_of_mem _ List.mem_cons_self)
  exact ⟨select_crowdedFiles, halike, hmeet.2.2.2.2 halike⟩

/-- The results for the first two files have one place, and that for the third has the place of the source
map of the first. -/
theorem results_meet_crowded :
    (select crowdedFiles { workingDirectory := ⟨"/w"⟩ } ["s/a.jsx", "s/../a.jsx", "s/a.jsx.map"] []).result =
        .ok [(⟨"s/a.jsx"⟩, 1), (⟨"s/../a.jsx"⟩, 1), (⟨"s/a.jsx.map"⟩, 1)] ∧
      (Path.mk "s/a.jsx").components ≠ (Path.mk "s/../a.jsx").components ∧
      (Path.mk "s/a.jsx").outputFor ⟨"dist"⟩ ⟨"/w"⟩ = (Path.mk "s/../a.jsx").outputFor ⟨"dist"⟩ ⟨"/w"⟩ ∧
      (Path.mk "s/a.jsx.map").outputFor ⟨"dist"⟩ ⟨"/w"⟩ =
        ((Path.mk "s/a.jsx").outputFor ⟨"dist"⟩ ⟨"/w"⟩).sidecar :=
  ⟨select_crowdedFiles, by decide +kernel, by decide +kernel, by decide +kernel⟩

end Selection

end BreakpointProps
