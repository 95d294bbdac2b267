import BreakpointProps.Proofs.Build.Containment
import BreakpointProps.Proofs.Build.Results

/-!
Working on one file of a build. What becomes of it is known from the start: other files that were worked on
before change neither what is read nor whether it can be written.
-/

namespace BreakpointProps

open FileSystem (Place temporary passed ending Kept)

namespace Path

theorem sidecar_ne (output : Path) : output.sidecar ≠ output := by
  intro hsame
  have hlength := congrArg (fun p : Path => p.text.toList.length) hsame
  simp [sidecar, extended] at hlength

theorem temporary_sidecar_ne (output : Path) : temporary output.sidecar ≠ output := by
  intro hsame
  have hlength := congrArg (fun p : Path => p.text.toList.length) hsame
  simp [temporary, sidecar, extended] at hlength

/-- The source map of a result is in a file with a name. -/
theorem exists_endsIn_sidecar (input directory workingDirectory : Path) :
    ∃ name, (input.outputFor directory workingDirectory).sidecar.EndsIn name := by
  have hending : IsEnding ".map" := ⟨by decide, by decide⟩
  refine ⟨(input.outputNames workingDirectory).getLastD "" ++ ".map", ?_⟩
  rw [outputFor_eq, sidecar, extended_join_names hending]
  exact endsIn_join_names fun n hn =>
    isName_of_mem_withEnding (fun _ h => isName_of_mem_outputNames h) hending hn

end Path

theorem FileSystem.start_join_names {files : FileSystem} {directory : Path} {names : List String}
    (hnames : ∀ n ∈ names, IsName n) :
    files.start (directory.join (.ofComponents (names.map .normal))) = files.start directory := by
  rw [start, start, origin, origin, Path.isAbsolute_join, Path.isAbsolute_ofComponents_names hnames,
    Bool.false_or]

/-- A path to a name in a directory goes through the directory. -/
theorem FileSystem.spot_mem_passed (files : FileSystem) (directory : Path) {name : String}
    (hname : IsName name) :
    files.spot (directory.join (.ofComponents (([] : List String).map .normal))) ∈
      passed (files.start (directory.join (.ofComponents ([name].map .normal))))
        (directory.join (.ofComponents ([name].map .normal))).steps := by
  have hnone : ∀ n ∈ ([] : List String), IsName n := fun _ hn => absurd hn List.not_mem_nil
  have hone : ∀ n ∈ [name], IsName n := fun n hn => List.mem_singleton.mp hn ▸ hname
  rw [spot, start_join_names hnone, start_join_names hone, Path.steps_join_names hnone,
    Path.steps_join_names hone, List.map_nil, List.append_nil, passed_append]
  exact List.mem_append_right _ List.mem_cons_self

namespace BuildSettings

/-- Where the result for a file goes. -/
def output (settings : BuildSettings) (path : Path) : Path :=
  path.outputFor settings.outDirectory settings.policy.workingDirectory

variable {files now : FileSystem} {settings : BuildSettings} {targets inputs : List Path}
variable {written : List Place} {path : Path}

section Goals

variable (hresults : (settings.output path).resultPaths ⊆ targets)

include hresults

theorem isGoal_sidecar : FileSystem.IsGoal targets (settings.output path).sidecar :=
  ⟨hresults (by simp [Path.resultPaths]), hresults (by simp [Path.resultPaths]),
    Path.exists_endsIn_sidecar path settings.outDirectory settings.policy.workingDirectory⟩

/-- A result that keeps apart from its own source map is in a file with a name. -/
theorem isGoal_output (hapart : files.AreApart targets inputs) :
    FileSystem.IsGoal targets (settings.output path) := by
  have houtput : settings.output path ∈ targets := hresults (by simp [Path.resultPaths])
  have hsidecar := (isGoal_sidecar hresults).mem
  have hending : Path.IsEnding ".map" := ⟨by decide, by decide⟩
  have hnames : ∀ n ∈ path.outputNames settings.policy.workingDirectory, IsName n :=
    fun n hn => Path.isName_of_mem_outputNames hn
  refine ⟨houtput, hresults (by simp [Path.resultPaths]), ?_⟩
  unfold output at *
  rw [Path.outputFor_eq] at *
  rcases List.eq_nil_or_concat (path.outputNames settings.policy.workingDirectory) with
    hnil | ⟨front, name, hconcat⟩
  · -- Without names, the result would be the directory itself, in which its source map stands.
    rw [hnil] at houtput hsidecar
    have hbelow := hapart.noneAbove _ houtput _ hsidecar (Path.sidecar_ne _)
    rw [Path.sidecar, Path.extended_join_names hending] at hbelow
    have hname : IsName ("" ++ ".map") := Path.isName_append (by simp) hending
    exact absurd (files.spot_mem_passed settings.outDirectory hname) hbelow
  · rw [List.concat_eq_append] at hconcat
    rw [hconcat] at hnames ⊢
    exact ⟨name, Path.endsIn_join_names hnames⟩

end Goals

end BuildSettings

namespace BuildProduct

variable {files now : FileSystem} {settings : BuildSettings} {targets inputs : List Path}
variable {written : List Place} {path : Path} {text : String}

section Write

variable {product : BuildProduct}

theorem write_of_error {failure : Failure}
    (hfirst : (files.writeOutput product.output product.text).2 = .error failure) :
    product.write files = files.writeOutput product.output product.text := by
  unfold write
  generalize files.writeOutput product.output product.text = result at hfirst
  obtain ⟨after, outcome⟩ := result
  obtain rfl := hfirst
  rfl

theorem write_of_no_map (hmap : product.map = none) :
    product.write files = files.writeOutput product.output product.text := by
  unfold write
  rw [hmap]
  generalize files.writeOutput product.output product.text = result
  obtain ⟨after, outcome⟩ := result
  cases outcome <;> rfl

theorem write_of_map {target : Path} {map : String} (hmap : product.map = some (target, map))
    (hfirst : (files.writeOutput product.output product.text).2 = .ok ()) :
    product.write files =
      (files.writeOutput product.output product.text).1.writeOutput target map := by
  unfold write
  rw [hmap]
  generalize files.writeOutput product.output product.text = result at hfirst
  obtain ⟨after, outcome⟩ := result
  obtain rfl := hfirst
  rfl

/-- A write either ends with the text or goes on with the source map. -/
theorem write_cases (product : BuildProduct) (files : FileSystem) :
    (product.write files = files.writeOutput product.output product.text ∧
      ((∃ failure, (product.write files).2 = .error failure) ∨ product.map = none)) ∨
    ∃ target map, product.map = some (target, map) ∧
      (files.writeOutput product.output product.text).2 = .ok () ∧
      product.write files =
        (files.writeOutput product.output product.text).1.writeOutput target map := by
  cases hfirst : (files.writeOutput product.output product.text).2 with
  | error failure =>
      have hwrite := write_of_error hfirst
      exact Or.inl ⟨hwrite, Or.inl ⟨failure, by rw [hwrite, hfirst]⟩⟩
  | ok =>
      cases hmap : product.map with
      | none => exact Or.inl ⟨write_of_no_map hmap, Or.inr rfl⟩
      | some found => exact Or.inr ⟨found.1, found.2, rfl, rfl, write_of_map hmap hfirst⟩

end Write

section OfText

theorem map_ofText (settings : BuildSettings) (path : Path) (text : String) :
    (ofText settings path text).map =
      ((Rewrite.hook settings.config path.text text).result.bind fun output => output.map).map
        fun map => ((settings.output path).sidecar, map) := by
  simp only [ofText, BuildSettings.output]
  cases (Rewrite.hook settings.config path.text text).result <;> rfl

theorem sidecar_of_map {target : Path} {map : String}
    (hmap : (ofText settings path text).map = some (target, map)) :
    target = (settings.output path).sidecar := by
  rw [map_ofText] at hmap
  obtain ⟨found, _, hfound⟩ := Option.map_eq_some_iff.mp hmap
  exact (Prod.mk.inj hfound).1.symm

theorem output_ofText (settings : BuildSettings) (path : Path) (text : String) :
    (ofText settings path text).output = settings.output path := by
  simp only [ofText, BuildSettings.output]

/-- What is made of a file ends with the text or goes on with the source map. -/
theorem write_ofText_cases (settings : BuildSettings) (path : Path) (text : String) (files : FileSystem) :
    ((ofText settings path text).write files =
        files.writeOutput (settings.output path) (ofText settings path text).text ∧
      ((∃ failure, ((ofText settings path text).write files).2 = .error failure) ∨
        (ofText settings path text).map = none)) ∨
    ∃ map, (ofText settings path text).map = some ((settings.output path).sidecar, map) ∧
      (files.writeOutput (settings.output path) (ofText settings path text).text).2 = .ok () ∧
      (ofText settings path text).write files =
        (files.writeOutput (settings.output path) (ofText settings path text).text).1.writeOutput
          (settings.output path).sidecar map := by
  have hcases := write_cases (ofText settings path text) files
  rw [output_ofText] at hcases
  rcases hcases with hfirst | ⟨target, map, hmap, hrest⟩
  · exact Or.inl hfirst
  · obtain rfl := sidecar_of_map hmap
    exact Or.inr ⟨map, hmap, hrest⟩

variable (hresults : (settings.output path).resultPaths ⊆ targets)

include hresults

theorem spots_subset :
    (settings.output path).resultPaths.map files.spot ⊆ targets.map files.spot :=
  List.map_subset _ hresults

variable (hapart : files.AreApart targets inputs) (htree : files.IsTree)
variable (hkept : Kept (files.roads targets) (targets.map files.spot) files now)

include hapart htree hkept

theorem kept_output :
    Kept (files.roads targets) ((settings.output path).resultPaths.map files.spot) now
      (now.writeOutput (settings.output path) text).1 :=
  (FileSystem.kept_writeOutput hapart htree hkept (BuildSettings.isGoal_output hresults hapart)).mono
    (by simp [Path.resultPaths])

theorem kept_sidecar :
    Kept (files.roads targets) ((settings.output path).resultPaths.map files.spot) now
      (now.writeOutput (settings.output path).sidecar text).1 :=
  (FileSystem.kept_writeOutput hapart htree hkept (BuildSettings.isGoal_sidecar hresults)).mono
    (by simp [Path.resultPaths])

theorem kept_between (text : String) :
    Kept (files.roads targets) (targets.map files.spot) files
      (now.writeOutput (settings.output path) text).1 :=
  hkept.trans ((kept_output hresults hapart htree hkept).mono (spots_subset hresults))

/-- Writing what was made of a file changes the places for it only. -/
theorem kept_write :
    Kept (files.roads targets) ((settings.output path).resultPaths.map files.spot) now
      ((ofText settings path text).write now).1 := by
  have hfirst : Kept _ _ now (now.writeOutput (settings.output path) (ofText settings path text).text).1 :=
    kept_output hresults hapart htree hkept
  rcases write_ofText_cases settings path text now with ⟨hwrite, _⟩ | ⟨map, _, _, hwrite⟩
  · rw [hwrite]
    exact hfirst
  · rw [hwrite]
    exact hfirst.trans (kept_sidecar hresults hapart htree (kept_between hresults hapart htree hkept _))

/-- A result stays when its source map is written, and the source map stands beside it. -/
theorem holds_sidecar {map : String} (hholds : now.Holds (settings.output path) text)
    (hwritten : (now.writeOutput (settings.output path).sidecar map).2 = .ok ()) :
    (now.writeOutput (settings.output path).sidecar map).1.Holds (settings.output path) text ∧
      (now.writeOutput (settings.output path).sidecar map).1.Holds (settings.output path).sidecar map := by
  have houtput := BuildSettings.isGoal_output hresults hapart
  have hsidecar := BuildSettings.isGoal_sidecar hresults
  have hlater : Kept _ _ now (now.writeOutput (settings.output path).sidecar map).1 :=
    FileSystem.kept_writeOutput hapart htree hkept hsidecar
  refine ⟨hholds.later hapart hkept hlater houtput.mem ?_,
    FileSystem.holds_writeOutput hapart htree hkept hsidecar hwritten⟩
  rw [List.mem_cons, List.mem_singleton, not_or]
  exact ⟨hapart.spot_ne houtput.mem hsidecar.mem (Path.sidecar_ne _).symm,
    hapart.spot_ne houtput.mem hsidecar.before (Path.temporary_sidecar_ne _).symm⟩

/-- What was made of a file and written stands in its places. -/
theorem holds_write (hwritten : ((ofText settings path text).write now).2 = .ok ()) :
    ((ofText settings path text).write now).1.Holds (settings.output path) (ofText settings path text).text ∧
      ∀ target map, (ofText settings path text).map = some (target, map) →
        ((ofText settings path text).write now).1.Holds target map := by
  rcases write_ofText_cases settings path text now with ⟨hwrite, hend⟩ | ⟨map, hmap, hfirst, hwrite⟩
  · rcases hend with ⟨failure, hfailure⟩ | hmap
    · exact absurd (hwritten.symm.trans hfailure) nofun
    · rw [hwrite] at hwritten ⊢
      rw [hmap]
      exact ⟨FileSystem.holds_writeOutput hapart htree hkept
        (BuildSettings.isGoal_output hresults hapart) hwritten, nofun⟩
  · rw [hwrite] at hwritten ⊢
    have hholds := FileSystem.holds_writeOutput hapart htree hkept
      (BuildSettings.isGoal_output hresults hapart) hfirst
    obtain ⟨houtput, hsidecar⟩ := holds_sidecar hresults hapart htree
      (kept_between hresults hapart htree hkept _) hholds hwritten
    refine ⟨houtput, fun target found hfound => ?_⟩
    obtain ⟨rfl, rfl⟩ := Prod.mk.inj (Option.some.inj (hmap.symm.trans hfound))
    exact hsidecar

/-- A file can be worked on exactly if its result and its source map could be written at the start. -/
theorem write_eq_ok_iff :
    ((ofText settings path text).write now).2 = .ok () ↔
      (files.writeOutput (settings.output path) (ofText settings path text).text).2 = .ok () ∧
        ∀ map, (ofText settings path text).map = some ((settings.output path).sidecar, map) →
          (files.writeOutput (settings.output path).sidecar map).2 = .ok () := by
  rw [← FileSystem.writeOutput_eq_ok_iff hapart htree hkept (BuildSettings.isGoal_output hresults hapart)]
  rcases write_ofText_cases settings path text now with ⟨hwrite, hend⟩ | ⟨map, hmap, hfirst, hwrite⟩
  · rcases hend with ⟨failure, hfailure⟩ | hmap
    · rw [hfailure]
      rw [hwrite] at hfailure
      rw [hfailure]
      exact iff_of_false nofun fun h => absurd h.1 nofun
    · rw [hwrite, hmap]
      exact ⟨fun h => ⟨h, nofun⟩, fun h => h.1⟩
  · rw [hwrite, FileSystem.writeOutput_eq_ok_iff hapart htree (kept_between hresults hapart htree hkept _)
      (BuildSettings.isGoal_sidecar hresults), hmap]
    refine ⟨fun h => ⟨hfirst, fun found hfound => ?_⟩, fun h => h.2 map rfl⟩
    obtain ⟨_, rfl⟩ := Prod.mk.inj (Option.some.inj hfound)
    exact h

/-- Where no directory is missing before a file on the way, it comes to the same as at the start. -/
theorem write_same (hdirect : files.IsDirect (settings.output path))
    (hdirect' : files.IsDirect (settings.output path).sidecar) :
    ((ofText settings path text).write now).2 = ((ofText settings path text).write files).2 := by
  have hfirst : ∀ text, (now.writeOutput (settings.output path) text).2 =
      (files.writeOutput (settings.output path) text).2 := fun text =>
    FileSystem.writeOutput_same hapart htree hkept (BuildSettings.isGoal_output hresults hapart) hdirect
  have hsecond : ∀ {later}, Kept (files.roads targets) (targets.map files.spot) files later → ∀ text,
      (later.writeOutput (settings.output path).sidecar text).2 =
        (files.writeOutput (settings.output path).sidecar text).2 := fun hlater text =>
    FileSystem.writeOutput_same hapart htree hlater (BuildSettings.isGoal_sidecar hresults) hdirect'
  have hsame := hfirst (ofText settings path text).text
  have hbetween := hsecond (kept_between hresults hapart htree hkept (ofText settings path text).text)
  have hbetween' := hsecond
    (kept_between hresults hapart htree (.refl _ _ files) (ofText settings path text).text)
  rw [← output_ofText settings path text] at hsame hbetween hbetween'
  cases hresult : (files.writeOutput (ofText settings path text).output (ofText settings path text).text).2 with
  | error failure => rw [write_of_error hresult, write_of_error (hsame.trans hresult), hsame]
  | ok =>
      cases hmap : (ofText settings path text).map with
      | none => rw [write_of_no_map hmap, write_of_no_map hmap, hsame]
      | some found =>
          obtain ⟨target, map⟩ := found
          have htarget := sidecar_of_map hmap
          rw [write_of_map hmap hresult, write_of_map hmap (hsame.trans hresult)]
          rw [htarget, ← output_ofText settings path text, hbetween, hbetween']

end OfText

end BuildProduct

end BreakpointProps
