import Mathlib.Data.List.Forall2
import Mathlib.Data.List.Pairwise
import BreakpointProps.Build
import BreakpointProps.Proofs.Build.Product
import BreakpointProps.Proofs.Build.Selection
import BreakpointProps.Proofs.Report

/-!
The order in which the files of a build are worked on. Where the places that a build writes to keep apart,
each file comes to the same in every order, and its results are in their places in the end.
-/

namespace BreakpointProps

open FileSystem (Place temporary Kept)

namespace FileSystem

variable {files now : FileSystem} {targets inputs : List Path} {path : Path}

/-- What is read is what was there at the start. -/
theorem readText_of_kept {place : Place} {node : Node} (hapart : files.AreApart targets inputs)
    (hkept : Kept (files.roads targets) (targets.map files.spot) files now) (hinput : path ∈ inputs)
    (hplace : files.place path = .ok place) (hnode : files.node? place = some node) :
    now.readText path = files.readText path := by
  have hother : place ∉ targets.map files.spot := by
    intro hmem
    obtain ⟨target, htarget, rfl⟩ := List.mem_map.mp hmem
    exact hapart.noInput target htarget path hinput hplace
  obtain ⟨hfault, hwalk⟩ := place_eq_ok_iff.mp hplace
  have hplace' : now.place path = .ok place := by
    rw [place_eq_ok_iff, hkept.start]
    exact ⟨hfault, walk_of_walk (fun _ _ hfound hfile => hkept.node? hfound (Or.inr hfile))
      (fun _ hfound => hkept.node? hfound (Or.inl hother)) hwalk⟩
  have hnodeAt : now.nodeAt path = files.nodeAt path := by
    unfold nodeAt
    rw [hplace, hplace']
    simp only [bind, Except.bind, hnode, hkept.node? hnode (Or.inl hother)]
  unfold readText
  rw [hnodeAt]

end FileSystem

/-- Do two outcomes differ at most in the message of an error? -/
structure FileOutcome.SameButMessage (outcome other : FileOutcome) : Prop where
  rest : { outcome with error := none } = { other with error := none }
  error : outcome.error.isSome = other.error.isSome

theorem FileOutcome.SameButMessage.refl (outcome : FileOutcome) : outcome.SameButMessage outcome := ⟨rfl, rfl⟩

namespace BuildSettings

variable {files now after : FileSystem} {settings : BuildSettings} {path : Path}

section Process

theorem process_of_error (settings : BuildSettings) {fault : FileSystem.Fault}
    (hread : files.readText path = .error fault) :
    (settings.process files path).1 = files ∧
      (settings.process files path).2.1 = { error := some fault.message } := by
  unfold process
  rw [hread]
  exact ⟨rfl, rfl⟩

/-- The outcome for a text, depending on what became of the writing. -/
def outcomeOf (product : BuildProduct) : Except Failure Unit → FileOutcome
  | .ok () => product.outcome
  | .error failure => { product.outcome with error := some failure.message }

theorem process_of_ok {text : String} (hdry : settings.dryRun = false)
    (hread : files.readText path = .ok text) :
    (settings.process files path).1 = ((BuildProduct.ofText settings path text).write files).1 ∧
      (settings.process files path).2.1 =
        outcomeOf (.ofText settings path text) ((BuildProduct.ofText settings path text).write files).2 := by
  unfold process
  rw [hread, hdry]
  dsimp only
  rw [if_neg Bool.false_ne_true]
  generalize (BuildProduct.ofText settings path text).write files = result
  obtain ⟨after, outcome⟩ := result
  cases outcome <;> exact ⟨rfl, rfl⟩

theorem outcomeOf_sameButMessage {product : BuildProduct} {result other : Except Failure Unit}
    (hsame : result = .ok () ↔ other = .ok ()) :
    (outcomeOf product result).SameButMessage (outcomeOf product other) := by
  cases result with
  | ok =>
      rw [hsame.mp rfl]
      exact .refl _
  | error failure =>
      cases other with
      | ok => exact absurd (hsame.mpr rfl) nofun
      | error failure' => exact ⟨rfl, rfl⟩

end Process

section Told

/-- What is known of the outcome for a path, whichever files were worked on before and after: it is that
of working on this file alone, up to the message of an error, and if there was no error, what was made
of the text is in its places. -/
structure IsTold (settings : BuildSettings) (files now : FileSystem) (path : Path) (outcome : FileOutcome) :
    Prop where
  same : outcome.SameButMessage (settings.process files path).2.1
  direct : files.IsDirect (settings.output path) → files.IsDirect (settings.output path).sidecar →
    outcome = (settings.process files path).2.1
  holds : outcome.error = none → ∃ text, files.readText path = .ok text ∧
    outcome = (BuildProduct.ofText settings path text).outcome ∧
    now.Holds (settings.output path) (BuildProduct.ofText settings path text).text ∧
    ∀ target map, (BuildProduct.ofText settings path text).map = some (target, map) → now.Holds target map

/-- The places that the results for a file go to. -/
def resultSpots (settings : BuildSettings) (files : FileSystem) (path : Path) : List Place :=
  (settings.output path).resultPaths.map files.spot

variable {targets inputs : List Path}
variable (hapart : files.AreApart targets inputs) (htree : files.IsTree)
variable (hkept : Kept (files.roads targets) (targets.map files.spot) files now)
variable (hresults : (settings.output path).resultPaths ⊆ targets)

include hapart htree hkept hresults

/-- Working on a file changes its places only, and its outcome is known from the start. -/
theorem isTold_process (hdry : settings.dryRun = false) (hread : now.readText path = files.readText path) :
    Kept (files.roads targets) (settings.resultSpots files path) now (settings.process now path).1 ∧
      settings.IsTold files (settings.process now path).1 path (settings.process now path).2.1 := by
  cases hstart : files.readText path with
  | error fault =>
      obtain ⟨hfiles, houtcome⟩ := process_of_error settings (hread.trans hstart)
      obtain ⟨_, houtcome'⟩ := process_of_error settings hstart
      rw [hfiles, houtcome]
      refine ⟨.refl _ _ now, ?_, fun _ _ => houtcome'.symm, nofun⟩
      rw [houtcome']
      exact .refl _
  | ok text =>
      obtain ⟨hfiles, houtcome⟩ := process_of_ok hdry (hread.trans hstart)
      obtain ⟨_, houtcome'⟩ := process_of_ok hdry hstart
      rw [hfiles, houtcome]
      have hsame : ((BuildProduct.ofText settings path text).write now).2 = .ok () ↔ _ :=
        BuildProduct.write_eq_ok_iff hresults hapart htree hkept
      have hsame' : ((BuildProduct.ofText settings path text).write files).2 = .ok () ↔ _ :=
        BuildProduct.write_eq_ok_iff hresults hapart htree (.refl _ _ files)
      refine ⟨BuildProduct.kept_write hresults hapart htree hkept, ?_, fun hdirect hdirect' => ?_,
        fun herror => ?_⟩
      · rw [houtcome']
        exact outcomeOf_sameButMessage (hsame.trans hsame'.symm)
      · rw [houtcome', BuildProduct.write_same hresults hapart htree hkept hdirect hdirect']
      · cases hwritten : ((BuildProduct.ofText settings path text).write now).2 with
        | error failure =>
            rw [hwritten] at herror
            exact absurd herror nofun
        | ok => exact ⟨text, hstart, rfl, BuildProduct.holds_write hresults hapart htree hkept hwritten⟩

end Told

section Order

variable {targets inputs : List Path} {outcome : FileOutcome}

/-- What is known of an outcome stays known while other places are written to. -/
theorem IsTold.later {more : List Place} (htold : settings.IsTold files now path outcome)
    (hapart : files.AreApart targets inputs)
    (hkept : Kept (files.roads targets) (targets.map files.spot) files now)
    (hlater : Kept (files.roads targets) more now after)
    (hresults : (settings.output path).resultPaths ⊆ targets)
    (hother : ∀ target ∈ (settings.output path).resultPaths, files.spot target ∉ more) :
    settings.IsTold files after path outcome := by
  refine ⟨htold.same, htold.direct, fun herror => ?_⟩
  obtain ⟨text, hread, houtcome, houtput, hmap⟩ := htold.holds herror
  refine ⟨text, hread, houtcome, ?_, fun target map hfound => ?_⟩
  · exact houtput.later hapart hkept hlater (isGoal_output hresults hapart).mem
      (hother _ (by simp [Path.resultPaths]))
  · obtain rfl := BuildProduct.sidecar_of_map hfound
    exact (hmap _ map hfound).later hapart hkept hlater (isGoal_sidecar hresults).mem
      (hother _ (by simp [Path.resultPaths]))

/-- Can the files at some paths be worked on in any order? They are there, and their results go to different
places among the targets. -/
structure ArePlanned (settings : BuildSettings) (files : FileSystem) (targets inputs : List Path) : Prop where
  there : ∀ path ∈ inputs, ∃ place node, files.place path = .ok place ∧ files.node? place = some node
  results : ∀ path ∈ inputs, (settings.output path).resultPaths ⊆ targets
  disjoint : ∀ path ∈ inputs, ∀ other ∈ inputs, path ≠ other →
    ∀ target ∈ (settings.output path).resultPaths, target ∉ (settings.output other).resultPaths

/-- The results for a file go to other places than those for other files. -/
theorem ArePlanned.spot_not_mem (hplanned : settings.ArePlanned files targets inputs)
    (hapart : files.AreApart targets inputs) (hpath : path ∈ inputs) {others : List Path}
    (hothers : others ⊆ inputs) (hfresh : path ∉ others) :
    ∀ target ∈ (settings.output path).resultPaths,
      files.spot target ∉ others.flatMap (settings.resultSpots files) := by
  intro target htarget hmem
  obtain ⟨other, hother, hspot⟩ := List.mem_flatMap.mp hmem
  obtain ⟨found, hfound, hsame⟩ := List.mem_map.mp hspot
  have hne : path ≠ other := fun h => hfresh (h ▸ hother)
  refine hplanned.disjoint path hpath other (hothers hother) hne target htarget ?_
  by_contra hnot
  have htargets : target ≠ found := fun h => hnot (h ▸ hfound)
  exact hapart.spot_ne (hplanned.results path hpath htarget)
    (hplanned.results other (hothers hother) hfound) htargets hsame.symm

/-- In whatever order files are worked on, of each it is known what it comes to, and in the end its results
are in their places. -/
theorem forall_isTold_processAll (hapart : files.AreApart targets inputs) (htree : files.IsTree)
    (hplanned : settings.ArePlanned files targets inputs) (hdry : settings.dryRun = false)
    (hkept : Kept (files.roads targets) (targets.map files.spot) files now) {order : List Path}
    (horder : order.Nodup) (hinputs : order ⊆ inputs) :
    Kept (files.roads targets) (order.flatMap (settings.resultSpots files)) now
        (settings.processAll now order).1 ∧
      List.Forall₂ (fun path told => told.1 = path.text ∧
        settings.IsTold files (settings.processAll now order).1 path told.2) order
        (settings.processAll now order).2.1 := by
  induction order generalizing now with
  | nil => exact ⟨.refl _ _ now, .nil⟩
  | cons path rest ih =>
      have hpath := hinputs List.mem_cons_self
      have hresults := hplanned.results path hpath
      obtain ⟨place, node, hplace, hnode⟩ := hplanned.there path hpath
      obtain ⟨hfirst, htold⟩ := isTold_process hapart htree hkept hresults hdry
        (FileSystem.readText_of_kept hapart hkept hpath hplace hnode)
      have hnow := hkept.trans (hfirst.mono (BuildProduct.spots_subset hresults))
      obtain ⟨hrest, hall⟩ := ih hnow (List.nodup_cons.mp horder).2
        fun p hp => hinputs (List.mem_cons_of_mem _ hp)
      -- What is known of the first outcome outlives the rest of the run, which writes to other places.
      have hother := hplanned.spot_not_mem hapart hpath (fun p hp => hinputs (List.mem_cons_of_mem _ hp))
        (List.nodup_cons.mp horder).1
      refine ⟨?_, .cons ⟨rfl, htold.later hapart hnow hrest hresults hother⟩ hall⟩
      rw [List.flatMap_cons]
      exact (hfirst.mono (List.subset_append_left _ _)).trans (hrest.mono (List.subset_append_right _ _))

end Order

end BuildSettings

namespace BuildRequest

/-- The paths that a build may write to: for each file its result and source map, the report, and what is
written before each of these. -/
def targets (request : BuildRequest) (workingDirectory : Path) (chosen : List Path) : List Path :=
  chosen.flatMap (fun path => (path.outputFor request.outDirectory workingDirectory).resultPaths) ++
    request.report.toList.flatMap fun path => [path, temporary path]

/-- The report on chosen files, in the order in which they were chosen. -/
def reportOf (clock : BuildClock) (config : Config) (chosen : List Path)
    (outcomes : List (String × FileOutcome)) : Report :=
  ((Report.empty config.mode clock.start).addFiles
    (chosen.map fun path => (path.text, (outcomes.lookup path.text).getD {}))).finished clock.elapsed

/-- What a build of chosen files comes to if they are worked on in some order. -/
def runInOrder (request : BuildRequest) (clock : BuildClock) (config : Config) (policy : Policy)
    (files : FileSystem) (chosen order : List Path) : FileSystem × Report :=
  let result := (request.settings config policy).processAll files order
  let report := reportOf clock config chosen result.2.1
  ((request.writeReport result.1 report).1, report)

/-- What a build leaves of a file: what the report says of it is what it says if the file is built alone, up
to the message of an error, and if it says no error, the result and the source map it speaks of hold
what the hook made of the text, or the text as it was. -/
structure IsServed (settings : BuildSettings) (files after : FileSystem) (path : Path)
    (outcome : FileOutcome) : Prop where
  same : outcome.SameButMessage (settings.process files path).2.1
  holds : outcome.error = none → ∃ text, files.readText path = .ok text ∧
    outcome.rewritten = (Rewrite.hook settings.config path.text text).result.isSome ∧
    outcome.output = some (settings.output path).text ∧
    after.nodeAt (settings.output path) = .ok (.file
      ((Rewrite.hook settings.config path.text text).result.elim text fun output => output.code).toUTF8) ∧
    ∀ map, outcome.map = some map → ∃ written,
      ((Rewrite.hook settings.config path.text text).result.bind fun output => output.map) = some written ∧
        after.nodeAt ⟨map⟩ = .ok (.file written.toUTF8)

theorem isServed_of_isTold {settings : BuildSettings} {files after : FileSystem} {path : Path}
    {outcome : FileOutcome} (htold : settings.IsTold files after path outcome) :
    IsServed settings files after path outcome := by
  refine ⟨htold.same, fun herror => ?_⟩
  obtain ⟨text, hread, rfl, houtput, hmap⟩ := htold.holds herror
  refine ⟨text, hread, by simp only [BuildProduct.ofText], ?_, ?_, fun map hfound => ?_⟩
  · simp only [BuildProduct.ofText, BuildSettings.output]
  · have hnode := houtput.nodeAt
    simpa only [BuildProduct.ofText] using hnode
  · have houtcome : (BuildProduct.ofText settings path text).outcome.map =
        (BuildProduct.ofText settings path text).map.map fun entry => entry.1.text := by
      simp only [BuildProduct.ofText]
    rw [houtcome, BuildProduct.map_ofText] at hfound
    obtain ⟨entry, hentry, rfl⟩ := Option.map_eq_some_iff.mp hfound
    obtain ⟨written, hwritten, rfl⟩ := Option.map_eq_some_iff.mp hentry
    exact ⟨written, hwritten, (hmap _ written (by rw [BuildProduct.map_ofText, hwritten]; rfl)).nodeAt⟩

variable {files after : FileSystem} {request : BuildRequest} {policy : Policy} {config : Config}
variable {clock : BuildClock} {chosen : List Path}

theorem output_settings (request : BuildRequest) (config : Config) (policy : Policy) (path : Path) :
    (request.settings config policy).output path =
      path.outputFor request.outDirectory policy.workingDirectory := by
  simp only [BuildSettings.output, settings]

theorem mem_targets_of_mem_resultPaths {path target : Path} (hpath : path ∈ chosen)
    (htarget : target ∈ ((request.settings config policy).output path).resultPaths) :
    target ∈ request.targets policy.workingDirectory chosen := by
  rw [output_settings] at htarget
  exact List.mem_append_left _ (List.mem_flatMap.mpr ⟨path, hpath, htarget⟩)

theorem mem_targets_of_report {target : Path}
    (htarget : target ∈ request.report.toList.flatMap fun path => [path, temporary path]) :
    target ∈ request.targets policy.workingDirectory chosen := List.mem_append_right _ htarget

/-- If targets keep apart, the results for a file are neither those for another nor the report. -/
theorem results_disjoint
    (hapart : files.AreApart (request.targets policy.workingDirectory chosen) chosen) {path target : Path}
    (hpath : path ∈ chosen) (htarget : target ∈ ((request.settings config policy).output path).resultPaths) :
    (∀ other ∈ chosen, path ≠ other →
        target ∉ ((request.settings config policy).output other).resultPaths) ∧
      target ∉ request.report.toList.flatMap fun path => [path, temporary path] := by
  have hnodup := List.Nodup.of_map _ hapart.distinct
  obtain ⟨hresults, _, hreport⟩ := List.nodup_append.mp hnodup
  rw [output_settings] at htarget
  constructor
  · intro other hother hne
    rw [output_settings]
    have hpair := (List.nodup_flatMap.mp hresults).2
    have hsymm : Std.Symm (Function.onFun List.Disjoint fun path : Path =>
        (path.outputFor request.outDirectory policy.workingDirectory).resultPaths) :=
      ⟨fun _ _ h _ hother hone => h hone hother⟩
    exact hpair.forall hpath hother hne htarget
  · exact fun hmem => hreport target (List.mem_flatMap.mpr ⟨path, hpath, htarget⟩) target hmem rfl

theorem nodup_texts_of_select {patterns excludes : List String} {selected : List (Path × Nat)}
    (hselect : (Selection.select files policy patterns excludes).result = .ok selected) :
    ((selected.map Prod.fst).map Path.text).Nodup := by
  rw [List.nodup_iff_pairwise_ne, List.map_map, List.pairwise_map]
  exact (Selection.select_sound hselect).1.imp fun {a b} hother hsame =>
    hother (congrArg (fun text => (Path.mk text).components) hsame)

theorem arePlanned {patterns excludes : List String} {selected : List (Path × Nat)}
    (hselect : (Selection.select files policy patterns excludes).result = .ok selected)
    (hapart : files.AreApart (request.targets policy.workingDirectory (selected.map Prod.fst))
      (selected.map Prod.fst)) :
    (request.settings config policy).ArePlanned files
      (request.targets policy.workingDirectory (selected.map Prod.fst)) (selected.map Prod.fst) := by
  refine ⟨fun path hpath => ?_, fun path hpath target htarget => ?_, fun path hpath other hother hne target
    htarget => ?_⟩
  · obtain ⟨entry, hentry, rfl⟩ := List.mem_map.mp hpath
    obtain ⟨place, node, hplace, hnode, _⟩ := Selection.exists_nodeAt_of_select hselect hentry
    exact ⟨place, node, hplace, hnode⟩
  · exact mem_targets_of_mem_resultPaths hpath htarget
  · exact (results_disjoint hapart hpath htarget).1 other hother hne

/-- Writing the report changes its places only. -/
theorem kept_writeReport {written : List Place} {inputs : List Path} {now : FileSystem}
    (hapart : files.AreApart (request.targets policy.workingDirectory chosen) inputs) (htree : files.IsTree)
    (hkept : Kept (files.roads (request.targets policy.workingDirectory chosen)) written files now)
    (report : Report) :
    Kept (files.roads (request.targets policy.workingDirectory chosen))
      ((request.report.toList.flatMap fun path => [path, temporary path]).map files.spot) now
      (request.writeReport now report).1 := by
  unfold writeReport
  cases hreport : request.report with
  | none => exact .refl _ _ now
  | some path =>
      dsimp only
      split
      · exact .refl _ _ now
      · refine (FileSystem.kept_writeAtomic hapart htree hkept (mem_targets_of_report (by simp [hreport]))
          (mem_targets_of_report (by simp [hreport]))).mono ?_
        simp

section Told

variable {Told : Path → FileOutcome → Prop} {order : List Path} {outcomes : List (String × FileOutcome)}

/-- Outcomes for paths that all differ are found by the texts of the paths. -/
theorem lookup_of_forall₂
    (hall : List.Forall₂ (fun path told => told.1 = path.text ∧ Told path told.2) order outcomes)
    (hdistinct : (order.map Path.text).Nodup) {path : Path} (hpath : path ∈ order) :
    ∃ outcome, outcomes.lookup path.text = some outcome ∧ Told path outcome := by
  induction hall with
  | nil => exact absurd hpath List.not_mem_nil
  | @cons first entry rest outcomes hfirst _ ih =>
      obtain ⟨text, outcome⟩ := entry
      obtain ⟨rfl, htold⟩ := hfirst
      obtain ⟨hfresh, hrest⟩ := List.nodup_cons.mp hdistinct
      rcases List.mem_cons.mp hpath with rfl | hlater
      · exact ⟨outcome, by simp, htold⟩
      · have hother : (path.text == first.text) = false := by
          rw [beq_eq_false_iff_ne]
          exact fun hsame => hfresh (List.mem_map.mpr ⟨path, hlater, hsame⟩)
        rw [List.lookup_cons, hother]
        exact ih hrest hlater

/-- Outcomes in the order of their paths are what is found for the paths. -/
theorem map_lookup_of_forall₂
    (hall : List.Forall₂ (fun path told => told.1 = path.text ∧ Told path told.2) order outcomes)
    (hdistinct : (order.map Path.text).Nodup) :
    order.map (fun path => (path.text, (outcomes.lookup path.text).getD {})) = outcomes := by
  induction hall with
  | nil => rfl
  | @cons first entry rest outcomes hfirst _ ih =>
      obtain ⟨text, outcome⟩ := entry
      obtain ⟨rfl, _⟩ := hfirst
      obtain ⟨hfresh, hrest⟩ := List.nodup_cons.mp hdistinct
      rw [List.map_cons, List.lookup_cons_self]
      refine congrArg₂ List.cons rfl ((List.map_congr_left fun path hpath => ?_).trans (ih hrest))
      have hother : (path.text == first.text) = false := by
        rw [beq_eq_false_iff_ne]
        exact fun hsame => hfresh (List.mem_map.mpr ⟨path, hpath, hsame⟩)
      rw [List.lookup_cons, hother]

end Told

/-- The way to a result or its source map is direct if the directory for results has no step to a parent,
or if no file is on the way to any target. -/
theorem isDirect_of_straight {target : Path}
    (hapart : files.AreApart (request.targets policy.workingDirectory chosen) chosen) (htree : files.IsTree)
    (hgoal : FileSystem.IsGoal (request.targets policy.workingDirectory chosen) target)
    (hbehind : Path.IsBehind request.outDirectory target)
    (hstraight : .parent ∉ request.outDirectory.components ∨
      ∀ target ∈ request.targets policy.workingDirectory chosen, ∀ place ∈ files.above target,
        ∀ content, files.node? place ≠ some (.file content)) : files.IsDirect target := by
  obtain ⟨htarget, -, name, hends⟩ := hgoal
  rcases hstraight with hparent | hnoFile
  · by_cases hmissing : files.makeDirectory (FileSystem.parentOf target) = .error .missing
    · refine Or.inl ?_
      by_cases hempty : target.components.dropLast = []
      · intro place hplace
        rw [FileSystem.onWay, FileSystem.parentOf, hempty] at hplace
        exact absurd hplace List.not_mem_nil
      · have htrail := Path.isTrail_dropLast target
        refine FileSystem.meetsNoFile_of_missing htree (hapart.isPlain_parentOf htree htarget hends)
          (Path.text_ofComponents_ne htrail hempty) ?_ hmissing
        rw [FileSystem.parentOf, Path.steps_ofComponents htrail, List.mem_filterMap]
        rintro ⟨c, hc, hup⟩
        obtain ⟨names, hnames, rfl⟩ := hbehind
        rw [Path.components_join_names hnames] at hc
        rcases List.mem_append.mp (List.dropLast_subset _ hc) with hfront | hname
        · cases c <;> simp [Component.step?] at hup
          exact hparent hfront
        · obtain ⟨found, _, rfl⟩ := List.mem_map.mp hname
          simp [Component.step?] at hup
    · exact Or.inr hmissing
  · refine Or.inl fun place hplace => ?_
    rw [FileSystem.onWay_parentOf hends] at hplace
    exact hnoFile target htarget place hplace

theorem files_reportOf {outcomes : List (String × FileOutcome)} (hdistinct : (chosen.map Path.text).Nodup) :
    (reportOf clock config chosen outcomes).files =
      chosen.map fun path => (path.text, (outcomes.lookup path.text).getD {}) := by
  refine Report.files_addFiles_empty config.mode clock.start ?_
  rwa [List.map_map]

section Run

variable (config)
variable {selected : List (Path × Nat)} {order : List Path}
variable (htree : files.IsTree)
variable (hselect : (Selection.select files policy request.input request.exclude).result = .ok selected)
variable (hdry : request.dryRun = false)
variable (hapart : files.AreApart (request.targets policy.workingDirectory (selected.map Prod.fst))
  (selected.map Prod.fst))
variable (horder : order.Perm (selected.map Prod.fst))

include htree hselect hdry hapart horder

/-- After all files have been worked on, what is known of each of them is known of the whole run. -/
theorem forall_isTold_of_perm :
    Kept (files.roads (request.targets policy.workingDirectory (selected.map Prod.fst)))
        (order.flatMap ((request.settings config policy).resultSpots files)) files
        ((request.settings config policy).processAll files order).1 ∧
      List.Forall₂ (fun path told => told.1 = path.text ∧ (request.settings config policy).IsTold files
          ((request.settings config policy).processAll files order).1 path told.2) order
        ((request.settings config policy).processAll files order).2.1 := by
  have hnodup := (nodup_texts_of_select hselect).of_map
  exact BuildSettings.forall_isTold_processAll hapart htree (arePlanned hselect hapart) hdry
    (.refl _ _ files) (horder.nodup_iff.mpr hnodup) horder.subset

theorem kept_processAll :
    Kept (files.roads (request.targets policy.workingDirectory (selected.map Prod.fst)))
      ((request.targets policy.workingDirectory (selected.map Prod.fst)).map files.spot) files
      ((request.settings config policy).processAll files order).1 := by
  refine (forall_isTold_of_perm config htree hselect hdry hapart horder).1.mono fun place hplace => ?_
  obtain ⟨path, hpath, hspot⟩ := List.mem_flatMap.mp hplace
  obtain ⟨target, htarget, rfl⟩ := List.mem_map.mp hspot
  exact List.mem_map_of_mem (mem_targets_of_mem_resultPaths (horder.subset hpath) htarget)

/-- Also after the report has been written. -/
theorem exists_isTold {path : Path} (hpath : path ∈ selected.map Prod.fst) (report : Report) :
    ∃ outcome, ((request.settings config policy).processAll files order).2.1.lookup path.text = some outcome ∧
      (request.settings config policy).IsTold files
        (request.writeReport ((request.settings config policy).processAll files order).1 report).1 path
        outcome := by
  have hall := (forall_isTold_of_perm config htree hselect hdry hapart horder).2
  have hkept := kept_processAll config htree hselect hdry hapart horder
  have hdistinct := (horder.map Path.text).nodup_iff.mpr (nodup_texts_of_select hselect)
  obtain ⟨outcome, hlookup, htold⟩ := lookup_of_forall₂ hall hdistinct (horder.mem_iff.mpr hpath)
  refine ⟨outcome, hlookup, htold.later hapart hkept (kept_writeReport hapart htree hkept report)
    (fun _ htarget => mem_targets_of_mem_resultPaths hpath htarget) fun target htarget hmem => ?_⟩
  obtain ⟨found, hfound, hsame⟩ := List.mem_map.mp hmem
  have hother : found ≠ target := by
    rintro rfl
    exact (results_disjoint hapart hpath htarget).2 hfound
  exact hapart.spot_ne (mem_targets_of_report hfound) (mem_targets_of_mem_resultPaths hpath htarget) hother
    hsame

end Run

/-- Where the ways are straight, an outcome is that of working on the file alone. -/
theorem eq_of_isTold {path : Path} {outcome : FileOutcome} (htree : files.IsTree)
    (hapart : files.AreApart (request.targets policy.workingDirectory chosen) chosen) (hpath : path ∈ chosen)
    (htold : (request.settings config policy).IsTold files after path outcome)
    (hstraight : .parent ∉ request.outDirectory.components ∨
      ∀ target ∈ request.targets policy.workingDirectory chosen, ∀ place ∈ files.above target,
        ∀ content, files.node? place ≠ some (.file content)) :
    outcome = ((request.settings config policy).process files path).2.1 := by
  have hresults : ((request.settings config policy).output path).resultPaths ⊆
      request.targets policy.workingDirectory chosen :=
    fun _ htarget => mem_targets_of_mem_resultPaths hpath htarget
  have hbehind : Path.IsBehind request.outDirectory ((request.settings config policy).output path) := by
    rw [output_settings]
    exact Path.isBehind_outputFor _ _ _
  exact htold.direct
    (isDirect_of_straight hapart htree (BuildSettings.isGoal_output hresults hapart) hbehind hstraight)
    (isDirect_of_straight hapart htree (BuildSettings.isGoal_sidecar hresults)
      (hbehind.extended ⟨by decide, by decide⟩) hstraight)

/-- A run over the chosen files in their own order is the build itself. -/
theorem runWith_eq_runInOrder {selected : List (Path × Nat)} (htree : files.IsTree)
    (hselect : (Selection.select files policy request.input request.exclude).result = .ok selected)
    (hdry : request.dryRun = false)
    (hapart : files.AreApart (request.targets policy.workingDirectory (selected.map Prod.fst))
      (selected.map Prod.fst))
    (hallowed : request.outputViolation? files policy = none) (hselected : selected ≠ []) :
    (request.runWith clock config policy files).files =
        (request.runInOrder clock config policy files (selected.map Prod.fst) (selected.map Prod.fst)).1 ∧
      ∀ report, (request.runWith clock config policy files).result = .ok report →
        report = (request.runInOrder clock config policy files (selected.map Prod.fst)
          (selected.map Prod.fst)).2 := by
  have hall := (forall_isTold_of_perm config htree hselect hdry hapart (.refl _)).2
  have htold := map_lookup_of_forall₂ hall (nodup_texts_of_select hselect)
  unfold runInOrder reportOf
  dsimp only
  rw [htold]
  unfold runWith
  rw [hallowed]
  dsimp only
  rw [hselect]
  cases selected with
  | nil => exact absurd rfl hselected
  | cons entry rest =>
      dsimp only
      generalize (request.settings config policy).processAll files ((entry :: rest).map Prod.fst) = result
      obtain ⟨now, outcomes, entries⟩ := result
      dsimp only
      generalize request.writeReport now _ = written
      obtain ⟨last, outcome⟩ := written
      refine ⟨rfl, fun report hreport => ?_⟩
      cases outcome with
      | error failure => exact absurd hreport nofun
      | ok => exact (Except.ok.inj hreport).symm

/-- Each file of a build comes to the same, whatever the order in which the files are worked on, if the
places that the build writes to keep apart. -/
theorem files_in_any_order {selected : List (Path × Nat)} (htree : files.IsTree)
    (hselect : (Selection.select files policy request.input request.exclude).result = .ok selected)
    (hdry : request.dryRun = false)
    (hapart : files.AreApart (request.targets policy.workingDirectory (selected.map Prod.fst))
      (selected.map Prod.fst))
    (config : Config) (clock : BuildClock) :
    (request.outputViolation? files policy = none → selected ≠ [] →
      (request.runWith clock config policy files).files =
          (request.runInOrder clock config policy files (selected.map Prod.fst) (selected.map Prod.fst)).1 ∧
        ∀ report, (request.runWith clock config policy files).result = .ok report →
          report = (request.runInOrder clock config policy files (selected.map Prod.fst)
            (selected.map Prod.fst)).2) ∧
    ∀ order, order.Perm (selected.map Prod.fst) → ∀ after report,
      request.runInOrder clock config policy files (selected.map Prod.fst) order = (after, report) →
      List.Forall₂ (fun path told => told.1 = path.text ∧
        IsServed (request.settings config policy) files after path told.2 ∧
        (.parent ∉ request.outDirectory.components ∨
            (∀ target ∈ request.targets policy.workingDirectory (selected.map Prod.fst),
              ∀ place ∈ files.above target, ∀ content, files.node? place ≠ some (.file content)) →
          told.2 = ((request.settings config policy).process files path).2.1))
        (selected.map Prod.fst) report.files ∧
      ∀ place content, files.node? place = some (.file content) →
        place ∉ (request.targets policy.workingDirectory (selected.map Prod.fst)).map files.spot →
        after.node? place = some (.file content) := by
  refine ⟨fun hallowed hselected => runWith_eq_runInOrder htree hselect hdry hapart hallowed hselected,
    fun order horder after report hrun => ?_⟩
  obtain ⟨rfl, rfl⟩ := Prod.mk.inj hrun
  rw [files_reportOf (nodup_texts_of_select hselect)]
  constructor
  · rw [List.forall₂_map_right_iff, List.forall₂_same]
    intro path hpath
    obtain ⟨outcome, hlookup, htold⟩ := exists_isTold config htree hselect hdry hapart horder hpath
      (reportOf clock config (selected.map Prod.fst)
        ((request.settings config policy).processAll files order).2.1)
    rw [hlookup]
    exact ⟨rfl, isServed_of_isTold htold, eq_of_isTold htree hapart hpath htold⟩
  · intro place content hnode hother
    have hkept := kept_processAll config htree hselect hdry hapart horder
    have hlater := kept_writeReport hapart htree hkept
      (reportOf clock config (selected.map Prod.fst)
        ((request.settings config policy).processAll files order).2.1)
    refine hlater.node? (hkept.node? hnode (Or.inl hother)) (Or.inl fun hmem => hother ?_)
    obtain ⟨target, htarget, rfl⟩ := List.mem_map.mp hmem
    exact List.mem_map_of_mem (mem_targets_of_report htarget)

/-- A file, one in a directory, and one that is no input. -/
def nestedFiles : FileSystem where
  entries := [(["w"], .directory), (["w", "f.jsx"], .file "f".toUTF8), (["w", "s"], .directory),
    (["w", "s", "g.jsx"], .file "g".toUTF8), (["w", "b"], .file "x".toUTF8)]
  workingDirectory := ["w"]

/-- A build of the file and the one in the directory. -/
def nestedRequest (outDirectory : Path) : BuildRequest where
  input := ["f.jsx", "s/g.jsx"]
  outDirectory

theorem select_nestedFiles :
    (Selection.select nestedFiles { workingDirectory := ⟨"/w"⟩ } ["f.jsx", "s/g.jsx"] []).result =
      .ok [(⟨"f.jsx"⟩, 1), (⟨"s/g.jsx"⟩, 1)] :=
  (Selection.select_of_isSpelling (by decide +kernel)).trans (congrArg Except.ok (by decide +kernel))

theorem isTree_nestedFiles : nestedFiles.IsTree := ⟨by decide +kernel, by decide +kernel⟩

/-- The one in the directory is worked on first, and the file that is no input stays. -/
theorem files_in_any_order_reversed :
    (Selection.select nestedFiles { workingDirectory := ⟨"/w"⟩ } ["f.jsx", "s/g.jsx"] []).result =
        .ok [(⟨"f.jsx"⟩, 1), (⟨"s/g.jsx"⟩, 1)] ∧
      nestedFiles.AreApart ((nestedRequest ⟨"dist"⟩).targets ⟨"/w"⟩ [⟨"f.jsx"⟩, ⟨"s/g.jsx"⟩])
        [⟨"f.jsx"⟩, ⟨"s/g.jsx"⟩] ∧
      ∀ after report,
        (nestedRequest ⟨"dist"⟩).runInOrder ⟨default, 0⟩ (.standard .production) { workingDirectory := ⟨"/w"⟩ }
          nestedFiles [⟨"f.jsx"⟩, ⟨"s/g.jsx"⟩] [⟨"s/g.jsx"⟩, ⟨"f.jsx"⟩] = (after, report) →
        List.Forall₂ (fun path told => told = (path.text, (((nestedRequest ⟨"dist"⟩).settings
            (.standard .production) { workingDirectory := ⟨"/w"⟩ }).process nestedFiles path).2.1))
          [⟨"f.jsx"⟩, ⟨"s/g.jsx"⟩] report.files ∧
          after.node? ["w", "b"] = some (.file "x".toUTF8) := by
  have hapart : nestedFiles.AreApart
      ((nestedRequest ⟨"dist"⟩).targets ⟨"/w"⟩ [⟨"f.jsx"⟩, ⟨"s/g.jsx"⟩]) [⟨"f.jsx"⟩, ⟨"s/g.jsx"⟩] := by
    decide +kernel
  have hselect : (Selection.select nestedFiles { workingDirectory := ⟨"/w"⟩ } (nestedRequest ⟨"dist"⟩).input
      (nestedRequest ⟨"dist"⟩).exclude).result = .ok [(⟨"f.jsx"⟩, 1), (⟨"s/g.jsx"⟩, 1)] := select_nestedFiles
  refine ⟨hselect, hapart, fun after report hrun => ?_⟩
  obtain ⟨hserved, hother⟩ := (files_in_any_order isTree_nestedFiles hselect rfl hapart
    (.standard .production) ⟨default, 0⟩).2 _ (.swap _ _ _) after report hrun
  have hparent : .parent ∉ (nestedRequest ⟨"dist"⟩).outDirectory.components := by decide +kernel
  refine ⟨hserved.imp fun path told htold => ?_, hother ["w", "b"] _ (by decide +kernel) (by decide +kernel)⟩
  exact Prod.ext htold.1 (htold.2.2 (Or.inl hparent))

/-- Behind a directory that is still to be made, a step to a parent and a file lead to another error
before the directory is made than after. -/
theorem entries_depend_on_order :
    nestedFiles.IsTree ∧
      (Selection.select nestedFiles { workingDirectory := ⟨"/w"⟩ } ["f.jsx", "s/g.jsx"] []).result =
        .ok [(⟨"f.jsx"⟩, 1), (⟨"s/g.jsx"⟩, 1)] ∧
      nestedFiles.AreApart ((nestedRequest ⟨"a/../b"⟩).targets ⟨"/w"⟩ [⟨"f.jsx"⟩, ⟨"s/g.jsx"⟩])
        [⟨"f.jsx"⟩, ⟨"s/g.jsx"⟩] ∧
      ((nestedRequest ⟨"a/../b"⟩).runInOrder ⟨default, 0⟩ (.standard .production)
          { workingDirectory := ⟨"/w"⟩ } nestedFiles [⟨"f.jsx"⟩, ⟨"s/g.jsx"⟩]
          [⟨"f.jsx"⟩, ⟨"s/g.jsx"⟩]).2.files ≠
        ((nestedRequest ⟨"a/../b"⟩).runInOrder ⟨default, 0⟩ (.standard .production)
          { workingDirectory := ⟨"/w"⟩ } nestedFiles [⟨"f.jsx"⟩, ⟨"s/g.jsx"⟩]
          [⟨"s/g.jsx"⟩, ⟨"f.jsx"⟩]).2.files :=
  ⟨isTree_nestedFiles, select_nestedFiles, by decide +kernel, by decide +kernel⟩

end BuildRequest

end BreakpointProps
