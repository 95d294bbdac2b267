import BreakpointProps.Proofs.Build.Order
import BreakpointProps.Proofs.FileSystem.Touching

/-!
A build that writes nothing, against the build itself. It tells what the build comes to as long as the build
does not write over its own inputs, nor over a link that leads to one of them.
-/

namespace BreakpointProps

open FileSystem (Place Stays)

namespace FileSystem

variable {files : FileSystem} {places : List Place} {path : Path}

/-- The writing of a text to a path as it begins, with the files as they are after the directories for it
were made. It does not begin without them. -/
def beginning (files : FileSystem) (path : Path) : List (FileSystem × Path) :=
  match path.parent? with
  | none => [(files, path)]
  | some parent =>
    match files.makeDirectories parent with
    | (made, .ok ()) => [(made, path)]
    | (_, .error _) => []

/-- Do writings touch none of some places? -/
def Avoid (writings : List (FileSystem × Path)) (places : List Place) : Prop :=
  ∀ writing ∈ writings, ∀ place ∈ places, place ∉ writing.1.touched writing.2

/-- Writing a text after the directories for it changes what its writing touches. -/
theorem stays_writeOutput (text : String) (havoid : Avoid (files.beginning path) places) :
    Stays places files (files.writeOutput path text).1 := by
  unfold beginning at havoid
  rw [writeOutput]
  cases hparent : path.parent? with
  | none =>
      rw [hparent] at havoid
      have hwritten : Stays places files (files.writeAtomic path text).1 :=
        stays_writeAtomic (havoid (files, path) List.mem_cons_self)
      dsimp only
      generalize files.writeAtomic path text = result at hwritten
      exact hwritten
  | some parent =>
      rw [hparent] at havoid
      have hmade := stays_makeDirectories places files parent
      dsimp only at havoid ⊢
      generalize files.makeDirectories parent = result at havoid hmade
      obtain ⟨made, outcome⟩ := result
      cases outcome with
      | error fault => exact hmade
      | ok =>
          have hwritten : Stays places made (made.writeAtomic path text).1 :=
            stays_writeAtomic (havoid (made, path) List.mem_cons_self)
          dsimp only
          generalize made.writeAtomic path text = result at hwritten
          exact hmade.trans hwritten

end FileSystem

open FileSystem (Avoid)

/-- The writings for what is made of a file: of its text, and of its source map if the text was written. -/
def BuildProduct.writings (product : BuildProduct) (files : FileSystem) : List (FileSystem × Path) :=
  files.beginning product.output ++
    match files.writeOutput product.output product.text, product.map with
    | (files, .ok ()), some (path, _) => files.beginning path
    | _, _ => []

theorem BuildProduct.stays_write {product : BuildProduct} {files : FileSystem} {places : List Place}
    (havoid : Avoid (product.writings files) places) : Stays places files (product.write files).1 := by
  have hfirst : Stays places files (files.writeOutput product.output product.text).1 :=
    FileSystem.stays_writeOutput _ fun writing hwriting =>
      havoid writing (List.mem_append_left _ hwriting)
  rcases product.write_cases files with ⟨hwrite, _⟩ | ⟨path, map, hmap, hok, hwrite⟩
  · rw [hwrite]
    exact hfirst
  · rw [hwrite]
    refine hfirst.trans (FileSystem.stays_writeOutput _ fun writing hwriting => ?_)
    refine havoid writing (List.mem_append_right _ ?_)
    rw [hmap]
    generalize files.writeOutput product.output product.text = result at hok hwriting
    obtain ⟨after, outcome⟩ := result
    obtain rfl := hok
    exact hwriting

/-- Is an outcome foretold? It is the same but for an error in writing, which comes to an outcome with a
place for the result. -/
structure FileOutcome.Foretells (told found : FileOutcome) : Prop where
  rest : { told with error := none } = { found with error := none }
  readError : told.error = if found.output.isSome then none else found.error

/-- Does an entry of a report foretell one for the same path? -/
structure Report.EntryForetells (told found : String × FileOutcome) : Prop where
  path : told.1 = found.1
  outcome : told.2.Foretells found.2

namespace BuildSettings

variable {settings : BuildSettings} {files now : FileSystem} {places : List Place} {path : Path}
variable {paths : List Path}

/-- The writings for the file at a path. -/
def writingsFor (settings : BuildSettings) (files : FileSystem) (path : Path) : List (FileSystem × Path) :=
  match files.readText path with
  | .error _ => []
  | .ok text => (BuildProduct.ofText settings path text).writings files

/-- Does the writing for each file leave alone what those after it cross, in the order in which they are worked
on? The files are as they are when work on the first of them begins, and what is crossed is what was to be
crossed at the start. -/
def SparesLater (settings : BuildSettings) (start : FileSystem) : FileSystem → List Path → Prop
  | _, [] => True
  | files, path :: rest =>
    (∀ later ∈ rest, Avoid (settings.writingsFor files path) (start.crossing later)) ∧
      SparesLater settings start (settings.process files path).1 rest

instance decidableSparesLater (settings : BuildSettings) (start files : FileSystem) (paths : List Path) :
    Decidable (settings.SparesLater start files paths) :=
  match paths with
  | [] => inferInstanceAs (Decidable True)
  | path :: rest =>
    have := decidableSparesLater settings start (settings.process files path).1 rest
    inferInstanceAs (Decidable ((∀ later ∈ rest, ∀ writing ∈ settings.writingsFor files path,
      ∀ place ∈ start.crossing later, place ∉ writing.1.touched writing.2) ∧
        settings.SparesLater start (settings.process files path).1 rest))

/-- What the file at a path comes to if it can be written. -/
def foreseen (settings : BuildSettings) (files : FileSystem) (path : Path) : FileOutcome :=
  match files.readText path with
  | .error fault => { error := some fault.message }
  | .ok text => (BuildProduct.ofText settings path text).outcome

theorem process_of_dry (hdry : settings.dryRun = true) (files : FileSystem) (path : Path) :
    (settings.process files path).1 = files ∧
      (settings.process files path).2.1 = settings.foreseen files path := by
  unfold process foreseen
  cases files.readText path with
  | error fault => exact ⟨rfl, rfl⟩
  | ok text =>
      dsimp only
      rw [if_pos hdry]
      exact ⟨rfl, rfl⟩

/-- Files that are worked on one after the other have one outcome each. -/
theorem map_fst_processAll (settings : BuildSettings) (files : FileSystem) (paths : List Path) :
    (settings.processAll files paths).2.1.map Prod.fst = paths.map Path.text := by
  induction paths generalizing files with
  | nil => rfl
  | cons path rest ih => exact congrArg (path.text :: ·) (ih (settings.process files path).1)

/-- Without writing, each file comes to what is foreseen. -/
theorem processAll_of_dry (hdry : settings.dryRun = true) (files : FileSystem) (paths : List Path) :
    (settings.processAll files paths).1 = files ∧
      (settings.processAll files paths).2.1 =
        paths.map fun path => (path.text, settings.foreseen files path) := by
  induction paths with
  | nil => exact ⟨rfl, rfl⟩
  | cons path rest ih =>
      obtain ⟨hfiles, houtcome⟩ := process_of_dry hdry files path
      rw [processAll]
      dsimp only
      rw [hfiles, houtcome, ih.1, ih.2]
      exact ⟨rfl, rfl⟩

/-- An outcome with a place for the result and without an error foretells what becomes of the writing. -/
theorem foretells_outcomeOf {product : BuildProduct} (herror : product.outcome.error = none)
    (houtput : product.outcome.output.isSome = true) (result : Except Failure Unit) :
    product.outcome.Foretells (outcomeOf product result) := by
  cases result with
  | ok => exact ⟨rfl, by rw [outcomeOf, if_pos houtput, herror]⟩
  | error failure =>
      have hsome : (outcomeOf product (.error failure)).output.isSome = true := houtput
      exact ⟨rfl, by rw [if_pos hsome, herror]⟩

/-- Working on a file comes to what is foreseen, up to an error in writing. -/
theorem foretells_process (hdry : settings.dryRun = false) (hread : now.readText path = files.readText path) :
    (settings.foreseen files path).Foretells (settings.process now path).2.1 := by
  unfold foreseen
  cases hstart : files.readText path with
  | error fault =>
      rw [(process_of_error settings (hread.trans hstart)).2]
      exact ⟨rfl, rfl⟩
  | ok text =>
      rw [(process_of_ok hdry (hread.trans hstart)).2]
      have herror : (BuildProduct.ofText settings path text).outcome.error = none := by
        simp only [BuildProduct.ofText]
      have houtput : (BuildProduct.ofText settings path text).outcome.output.isSome = true := by
        simp only [BuildProduct.ofText, Option.isSome_some]
      exact foretells_outcomeOf herror houtput _

theorem stays_process (hdry : settings.dryRun = false) (havoid : Avoid (settings.writingsFor now path) places) :
    Stays places now (settings.process now path).1 := by
  unfold writingsFor at havoid
  cases hread : now.readText path with
  | error fault =>
      rw [(process_of_error settings hread).1]
      exact .refl _ _
  | ok text =>
      rw [hread] at havoid
      rw [(process_of_ok hdry hread).1]
      exact BuildProduct.stays_write havoid

/-- If no writing touches what a later path crosses, each file comes to what is foreseen from the start. -/
theorem foretells_processAll (hdry : settings.dryRun = false)
    (hthere : ∀ path ∈ paths, ∃ place node, files.place path = .ok place ∧ files.node? place = some node)
    (hnow : Stays (paths.flatMap files.crossing) files now) (hspares : settings.SparesLater files now paths) :
    List.Forall₂ (fun path found => found.1 = path.text ∧ (settings.foreseen files path).Foretells found.2)
      paths (settings.processAll now paths).2.1 := by
  -- The files at the start are fixed; those of the moment still read the same wherever work is to be done.
  induction paths generalizing now with
  | nil => exact .nil
  | cons path rest ih =>
      obtain ⟨place, node, hplace, hnode⟩ := hthere path List.mem_cons_self
      rw [List.flatMap_cons] at hnow
      have hread := hnow.readText (List.subset_append_left _ _) hplace hnode
      have hfirst : Stays (rest.flatMap files.crossing) now (settings.process now path).1 := by
        refine stays_process hdry fun writing hwriting place hplace => ?_
        obtain ⟨later, hlater, hcrossing⟩ := List.mem_flatMap.mp hplace
        exact hspares.1 later hlater writing hwriting place hcrossing
      have hrest := (hnow.mono (List.subset_append_right _ _)).trans hfirst
      refine .cons ⟨rfl, foretells_process hdry hread⟩ (ih (fun other hother => ?_) hrest hspares.2)
      exact hthere other (List.mem_cons_of_mem _ hother)

end BuildSettings

namespace Report

/-- Is a report foretold, apart from the time and from errors in writing? -/
structure Foretells (told found : Report) : Prop where
  version : told.version = found.version
  mode : told.mode = found.mode
  toolVersion : told.toolVersion = found.toolVersion
  processed : told.processed = found.processed
  rewritten : told.rewritten = found.rewritten
  elements : told.elements = found.elements
  files : List.Forall₂ EntryForetells told.files found.files

theorem forall₂_setFile {path : String} {told found : FileOutcome} {first second : List (String × FileOutcome)}
    (hfile : told.Foretells found) (hall : List.Forall₂ EntryForetells first second) :
    List.Forall₂ EntryForetells (setFile path told first) (setFile path found second) := by
  induction hall with
  | nil => exact .cons ⟨rfl, hfile⟩ .nil
  | @cons a b rest more hab hrest ih =>
      obtain ⟨other, held⟩ := a
      obtain ⟨other', held'⟩ := b
      obtain rfl : other = other' := hab.path
      rw [setFile, setFile]
      split
      · exact .cons ⟨rfl, hfile⟩ hrest
      · exact .cons hab ih

theorem Foretells.addFile {told found : Report} (hforetells : told.Foretells found) (path : String)
    {file other : FileOutcome} (hfile : file.Foretells other) :
    (told.addFile path file).Foretells (found.addFile path other) := by
  have hrest := FileOutcome.mk.inj hfile.rest
  have hrewritten : file.rewritten = other.rewritten := hrest.1
  have helements : file.elements = other.elements := hrest.2.1
  exact {
    version := hforetells.version
    mode := hforetells.mode
    toolVersion := hforetells.toolVersion
    processed := congrArg (· + 1) hforetells.processed
    rewritten := congrArg₂ (· + ·) hforetells.rewritten (congrArg Bool.toNat hrewritten)
    elements := congrArg₂ (· + ·) hforetells.elements helements
    files := forall₂_setFile hfile hforetells.files }

theorem Foretells.addFiles {told found : Report} (hforetells : told.Foretells found)
    {first second : List (String × FileOutcome)}
    (hall : List.Forall₂ EntryForetells first second) :
    (told.addFiles first).Foretells (found.addFiles second) := by
  induction hall generalizing told found with
  | nil => exact hforetells
  | @cons a b rest more hab _ ih =>
      obtain ⟨path, file⟩ := a
      obtain ⟨path', other⟩ := b
      obtain rfl : path = path' := hab.path
      exact ih (hforetells.addFile path hab.outcome)

end Report

namespace BuildRequest

variable {request : BuildRequest} {config : Config} {policy : Policy}
variable {files : FileSystem} {chosen : List Path}

/-- The files that a build works on, or why it works on none. -/
def inputs (request : BuildRequest) (policy : Policy) (files : FileSystem) : Except Failure (List Path) :=
  match request.outputViolation? files policy with
  | some violation => .error (.violation violation)
  | none =>
    match (Selection.select files policy request.input request.exclude).result with
    | .error failure => .error failure
    | .ok [] => .error .noFilesFound
    | .ok selected => .ok (selected.map Prod.fst)

/-- The report on files that were worked on. -/
def reportOn (clock : BuildClock) (config : Config) (outcomes : List (String × FileOutcome)) : Report :=
  ((Report.empty config.mode clock.start).addFiles outcomes).finished clock.elapsed

/-- A build works on no file and fails, or it works on its inputs and then writes its report. -/
theorem runWith_cases (request : BuildRequest) (clock : BuildClock) (config : Config) (policy : Policy)
    (files : FileSystem) :
    (∃ failure, request.inputs policy files = .error failure ∧
        (request.runWith clock config policy files).files = files ∧
        (request.runWith clock config policy files).result = .error failure) ∨
      ∃ chosen, request.inputs policy files = .ok chosen ∧
        let done := (request.settings config policy).processAll files chosen
        let report := reportOn clock config done.2.1
        (request.runWith clock config policy files).files = (request.writeReport done.1 report).1 ∧
          (request.runWith clock config policy files).result =
            (request.writeReport done.1 report).2.map fun () => report := by
  unfold inputs runWith
  cases request.outputViolation? files policy with
  | some violation => exact Or.inl ⟨_, rfl, rfl, rfl⟩
  | none =>
      dsimp only
      cases (Selection.select files policy request.input request.exclude).result with
      | error failure => exact Or.inl ⟨_, rfl, rfl, rfl⟩
      | ok selected =>
          cases selected with
          | nil => exact Or.inl ⟨_, rfl, rfl, rfl⟩
          | cons entry rest => exact Or.inr ⟨_, rfl, rfl, rfl⟩

theorem runWith_of_error (clock : BuildClock) (config : Config) {failure : Failure}
    (hchosen : request.inputs policy files = .error failure) :
    (request.runWith clock config policy files).files = files ∧
      (request.runWith clock config policy files).result = .error failure := by
  rcases request.runWith_cases clock config policy files with ⟨other, hother, hrun⟩ | ⟨_, hok, _⟩
  · obtain rfl := Except.error.inj (hother.symm.trans hchosen)
    exact hrun
  · cases hok.symm.trans hchosen

theorem runWith_of_ok (clock : BuildClock) (config : Config)
    (hchosen : request.inputs policy files = .ok chosen) :
    let done := (request.settings config policy).processAll files chosen
    let report := reportOn clock config done.2.1
    (request.runWith clock config policy files).files = (request.writeReport done.1 report).1 ∧
      (request.runWith clock config policy files).result =
        (request.writeReport done.1 report).2.map fun () => report := by
  rcases request.runWith_cases clock config policy files with ⟨_, herror, _⟩ | ⟨other, hother, hrun⟩
  · cases herror.symm.trans hchosen
  · obtain rfl := Except.ok.inj (hother.symm.trans hchosen)
    exact hrun

theorem exists_select_of_inputs (hchosen : request.inputs policy files = .ok chosen) :
    ∃ selected, (Selection.select files policy request.input request.exclude).result = .ok selected ∧
      chosen = selected.map Prod.fst := by
  unfold inputs at hchosen
  split at hchosen
  · cases hchosen
  · split at hchosen
    · cases hchosen
    · cases hchosen
    · rename_i selected _ hselected
      exact ⟨selected, hselected, (Except.ok.inj hchosen).symm⟩

/-- What a build works on is there. -/
theorem exists_node_of_inputs (hchosen : request.inputs policy files = .ok chosen) {path : Path}
    (hpath : path ∈ chosen) : ∃ place node, files.place path = .ok place ∧ files.node? place = some node := by
  obtain ⟨selected, hselected, rfl⟩ := exists_select_of_inputs hchosen
  obtain ⟨entry, hentry, rfl⟩ := List.mem_map.mp hpath
  obtain ⟨place, node, hplace, hnode, _⟩ := Selection.exists_nodeAt_of_select hselected hentry
  exact ⟨place, node, hplace, hnode⟩

theorem writeReport_of_dry (hdry : request.dryRun = true) (files : FileSystem) (report : Report) :
    request.writeReport files report = (files, .ok ()) := by
  unfold writeReport
  cases request.report with
  | none => rfl
  | some path => exact if_pos hdry

theorem writeReport_cases (request : BuildRequest) (files : FileSystem) (report : Report) :
    (request.writeReport files report).2 = .ok () ∨
      ∃ path fault, request.report = some path ∧
        (request.writeReport files report).2 = .error (.output path fault) := by
  unfold writeReport
  cases request.report with
  | none => exact Or.inl rfl
  | some path =>
      dsimp only
      split
      · exact Or.inl rfl
      · generalize files.writeAtomic path report.text = result
        obtain ⟨after, written⟩ := result
        cases written with
        | ok => exact Or.inl rfl
        | error fault => exact Or.inr ⟨path, fault, rfl, rfl⟩

/-- What a build works on has different texts. -/
theorem nodup_texts_of_inputs (hchosen : request.inputs policy files = .ok chosen) :
    (chosen.map Path.text).Nodup := by
  obtain ⟨selected, hselected, rfl⟩ := exists_select_of_inputs hchosen
  exact nodup_texts_of_select hselected

/-- What becomes of a build if the files that were chosen are worked on in some order. -/
def resultInOrder (request : BuildRequest) (clock : BuildClock) (config : Config) (policy : Policy)
    (files : FileSystem) (chosen order : List Path) : FileSystem × Except Failure Report :=
  let done := (request.settings config policy).processAll files order
  let report := reportOf clock config chosen done.2.1
  let written := request.writeReport done.1 report
  (written.1, written.2.map fun () => report)

section Order

variable {order : List Path} {outcomes : List (String × FileOutcome)}

/-- A build works on its inputs in the order in which they were chosen. -/
theorem runWith_eq_resultInOrder (clock : BuildClock) (config : Config)
    (hchosen : request.inputs policy files = .ok chosen) :
    (request.runWith clock config policy files).files =
        (request.resultInOrder clock config policy files chosen chosen).1 ∧
      (request.runWith clock config policy files).result =
        (request.resultInOrder clock config policy files chosen chosen).2 := by
  have htold := BuildSettings.map_fst_processAll (request.settings config policy) files chosen
  rw [← List.forall₂_eq_eq_eq, List.forall₂_map_left_iff, List.forall₂_map_right_iff] at htold
  have hall := htold.flip.imp fun path told hsame => And.intro hsame trivial
  have hlisted := @map_lookup_of_forall₂ (fun _ _ => True) _ _ hall (nodup_texts_of_inputs hchosen)
  unfold resultInOrder reportOf
  dsimp only
  rw [hlisted]
  exact runWith_of_ok clock config hchosen

/-- The report of a build that writes nothing lists what is foreseen, path by path. -/
theorem files_reportOn_foreseen {settings : BuildSettings} (clock : BuildClock) (config : Config)
    (hchosen : request.inputs policy files = .ok chosen) :
    (reportOn clock config (chosen.map fun path => (path.text, settings.foreseen files path))).files =
      chosen.map fun path => (path.text, settings.foreseen files path) := by
  refine Report.files_addFiles_empty config.mode clock.start ?_
  rw [List.map_map]
  exact nodup_texts_of_inputs hchosen

/-- A build that writes nothing comes to what is foreseen, in every order. -/
theorem resultInOrder_of_dry (clock : BuildClock) (config : Config) (hdry : request.dryRun = true)
    (hchosen : request.inputs policy files = .ok chosen) (horder : order.Perm chosen) :
    request.resultInOrder clock config policy files chosen order = (files, .ok (reportOn clock config
      (chosen.map fun path => (path.text, (request.settings config policy).foreseen files path)))) := by
  obtain ⟨hsame, hforeseen⟩ :=
    BuildSettings.processAll_of_dry (show (request.settings config policy).dryRun = true from hdry) files order
  have hall : List.Forall₂ (fun (path : Path) told => told.1 = path.text ∧
      told.2 = (request.settings config policy).foreseen files path) order
      (order.map fun path => (path.text, (request.settings config policy).foreseen files path)) :=
    List.forall₂_map_right_iff.mpr (List.forall₂_same.mpr fun path _ => ⟨rfl, rfl⟩)
  have hdistinct := (horder.map Path.text).nodup_iff.mpr (nodup_texts_of_inputs hchosen)
  have hlisted : chosen.map (fun path => (path.text, (((order.map fun path =>
      (path.text, (request.settings config policy).foreseen files path)).lookup path.text).getD {}))) =
      chosen.map fun path => (path.text, (request.settings config policy).foreseen files path) := by
    refine List.map_congr_left fun path hpath => ?_
    obtain ⟨outcome, hlookup, rfl⟩ :=
      @lookup_of_forall₂ (fun path outcome => outcome = (request.settings config policy).foreseen files path)
        _ _ hall hdistinct _ (horder.mem_iff.mpr hpath)
    rw [hlookup]
    rfl
  unfold resultInOrder reportOf
  dsimp only
  rw [hsame, hforeseen, hlisted, writeReport_of_dry hdry]
  rfl

/-- The only way in which a build that works on its inputs fails is that its report cannot be written. -/
theorem resultInOrder_cases (request : BuildRequest) (clock : BuildClock) (config : Config) (policy : Policy)
    (files : FileSystem) (chosen order : List Path) :
    (request.resultInOrder clock config policy files chosen order).2 = .ok (reportOf clock config chosen
        ((request.settings config policy).processAll files order).2.1) ∨
      ∃ path fault, request.report = some path ∧
        (request.resultInOrder clock config policy files chosen order).2 = .error (.output path fault) := by
  unfold resultInOrder
  dsimp only
  rcases request.writeReport_cases ((request.settings config policy).processAll files order).1
    (reportOf clock config chosen ((request.settings config policy).processAll files order).2.1)
    with hwritten | ⟨path, fault, hpath, hfailed⟩
  · rw [hwritten]
    exact Or.inl rfl
  · rw [hfailed]
    exact Or.inr ⟨path, fault, hpath, rfl⟩

theorem foretells_reportOn (clock clock' : BuildClock) (config : Config)
    {first second : List (String × FileOutcome)} (hall : List.Forall₂ Report.EntryForetells first second) :
    (reportOn clock config first).Foretells (reportOn clock' config second) := by
  have hempty : (Report.empty config.mode clock.start).Foretells (Report.empty config.mode clock'.start) :=
    ⟨rfl, rfl, rfl, rfl, rfl, rfl, .nil⟩
  have hadded := hempty.addFiles hall
  exact ⟨hadded.version, hadded.mode, hadded.toolVersion, hadded.processed, hadded.rewritten, hadded.elements,
    hadded.files⟩

/-- What is foretold of the outcomes, in whatever order they come, is foretold of the report on them. -/
theorem foretells_reportOf {settings : BuildSettings} (clock clock' : BuildClock) (config : Config)
    (hchosen : request.inputs policy files = .ok chosen) (horder : order.Perm chosen)
    (hall : List.Forall₂ (fun path found => found.1 = path.text ∧
      (settings.foreseen files path).Foretells found.2) order outcomes) :
    (reportOn clock config (chosen.map fun path => (path.text, settings.foreseen files path))).Foretells
      (reportOf clock' config chosen outcomes) := by
  have hdistinct := (horder.map Path.text).nodup_iff.mpr (nodup_texts_of_inputs hchosen)
  refine foretells_reportOn clock clock' config ?_
  rw [List.forall₂_map_left_iff, List.forall₂_map_right_iff, List.forall₂_same]
  intro path hpath
  obtain ⟨outcome, hlookup, hforetells⟩ := lookup_of_forall₂ hall hdistinct (horder.mem_iff.mpr hpath)
  rw [hlookup]
  exact ⟨rfl, hforetells⟩

end Order

/-- The same request with nothing to be written, or with everything. -/
def withDryRun (request : BuildRequest) (dryRun : Bool) : BuildRequest := { request with dryRun }

/-- A build that writes nothing changes nothing, and fails as the build itself does before that works on files.
Otherwise it comes to one report in whatever order the files are worked on, and this report foretells that of
the build itself in every order in which no writing touches what a later input leads to or a link that it
leads through. -/
theorem dryRun_foretells (request : BuildRequest) (clock clock' : BuildClock) (config : Config)
    (policy : Policy) (files : FileSystem) :
    let dry := request.withDryRun true
    let real := request.withDryRun false
    (dry.runWith clock config policy files).files = files ∧
      (∀ failure, request.inputs policy files = .error failure →
        (dry.runWith clock config policy files).result = .error failure ∧
          (real.runWith clock' config policy files).result = .error failure ∧
          (real.runWith clock' config policy files).files = files) ∧
      ∀ chosen, request.inputs policy files = .ok chosen →
        (real.runWith clock' config policy files).result =
            (real.resultInOrder clock' config policy files chosen chosen).2 ∧
          ∃ told, (dry.runWith clock config policy files).result = .ok told ∧
            told.files.map Prod.fst = chosen.map Path.text ∧
            ∀ order, order.Perm chosen →
              dry.resultInOrder clock config policy files chosen order = (files, .ok told) ∧
                ((∃ found, (real.resultInOrder clock' config policy files chosen order).2 = .ok found) ∨
                  ∃ path fault, request.report = some path ∧
                    (real.resultInOrder clock' config policy files chosen order).2 =
                      .error (.output path fault)) ∧
                ((real.settings config policy).SparesLater files files order →
                  ∀ found, (real.resultInOrder clock' config policy files chosen order).2 = .ok found →
                    told.Foretells found) := by
  intro dry real
  cases hchosen : request.inputs policy files with
  | error failure =>
      have hchosenDry : dry.inputs policy files = .error failure := hchosen
      have hchosenReal : real.inputs policy files = .error failure := hchosen
      obtain ⟨hdryFiles, hdry⟩ := runWith_of_error clock config hchosenDry
      obtain ⟨hrealFiles, hreal⟩ := runWith_of_error clock' config hchosenReal
      refine ⟨hdryFiles, fun other hother => ?_, fun chosen hok => absurd hok nofun⟩
      obtain rfl := Except.error.inj hother
      exact ⟨hdry, hreal, hrealFiles⟩
  | ok chosen =>
      have hchosenDry : dry.inputs policy files = .ok chosen := hchosen
      have hchosenReal : real.inputs policy files = .ok chosen := hchosen
      have hinOrder := fun (order : List Path) (horder : order.Perm chosen) =>
        resultInOrder_of_dry clock config (show dry.dryRun = true from rfl) hchosenDry horder
      obtain ⟨hdryFiles, hdry⟩ := runWith_eq_resultInOrder clock config hchosenDry
      rw [hinOrder chosen (.refl _)] at hdryFiles hdry
      refine ⟨hdryFiles, fun failure hfailure => absurd hfailure nofun, fun other hother => ?_⟩
      obtain rfl := Except.ok.inj hother
      refine ⟨(runWith_eq_resultInOrder clock' config hchosenReal).2, _, hdry, ?_, fun order horder => ?_⟩
      · rw [files_reportOn_foreseen clock config hchosenDry, List.map_map]
        rfl
      refine ⟨hinOrder order horder, ?_, fun hspares found hfound => ?_⟩
      · rcases real.resultInOrder_cases clock' config policy files chosen order with hok | hfailed
        · exact Or.inl ⟨_, hok⟩
        · exact Or.inr hfailed
      · have hall := BuildSettings.foretells_processAll rfl
          (fun path hpath => exists_node_of_inputs hchosenReal (horder.mem_iff.mp hpath)) (.refl _ files) hspares
        rcases real.resultInOrder_cases clock' config policy files chosen order with hok | ⟨_, _, _, hfailed⟩
        · obtain rfl := Except.ok.inj (hok.symm.trans hfound)
          exact foretells_reportOf clock clock' config hchosenReal horder hall
        · cases hfailed.symm.trans hfound

/-- A file, one in a directory, and a link to that directory below the directory for results. -/
def detouredFiles : FileSystem where
  entries := [(["w"], .directory), (["w", "x.jsx"], .file "f".toUTF8), (["w", "real"], .directory),
    (["w", "real", "b.jsx"], .file "g".toUTF8), (["w", "dist"], .directory),
    (["w", "dist", "x.jsx"], .link ⟨"../real"⟩)]
  workingDirectory := ["w"]

/-- A build of the two files, of the second one by way of the link. -/
def detouredRequest (outDirectory : Path) : BuildRequest where
  input := ["x.jsx", "dist/x.jsx/b.jsx"]
  outDirectory

theorem select_detouredFiles :
    (Selection.select detouredFiles { workingDirectory := ⟨"/w"⟩ } ["x.jsx", "dist/x.jsx/b.jsx"] []).result =
      .ok [(⟨"x.jsx"⟩, 1), (⟨"dist/x.jsx/b.jsx"⟩, 1)] :=
  (Selection.select_of_isSpelling (by decide +kernel)).trans (congrArg Except.ok (by decide +kernel))

theorem inputs_detouredFiles {outDirectory : Path}
    (hallowed : (detouredRequest outDirectory).outputViolation? detouredFiles { workingDirectory := ⟨"/w"⟩ } =
      none) :
    (detouredRequest outDirectory).inputs { workingDirectory := ⟨"/w"⟩ } detouredFiles =
      .ok [⟨"x.jsx"⟩, ⟨"dist/x.jsx/b.jsx"⟩] := by
  have hselect : (Selection.select detouredFiles { workingDirectory := ⟨"/w"⟩ } (detouredRequest outDirectory).input
      (detouredRequest outDirectory).exclude).result = _ := select_detouredFiles
  unfold inputs
  rw [hallowed, hselect]
  rfl

/-- The link leads to an input while the results go elsewhere, and the files are worked on in either order. -/
theorem dryRun_foretells_detoured :
    ∀ order ∈ [[(⟨"x.jsx"⟩ : Path), ⟨"dist/x.jsx/b.jsx"⟩], [⟨"dist/x.jsx/b.jsx"⟩, ⟨"x.jsx"⟩]],
      (((detouredRequest ⟨"out"⟩).withDryRun false).settings (.standard .production)
          { workingDirectory := ⟨"/w"⟩ }).SparesLater detouredFiles detouredFiles order ∧
        ∃ told found,
          (((detouredRequest ⟨"out"⟩).withDryRun true).runWith ⟨default, 0⟩ (.standard .production)
            { workingDirectory := ⟨"/w"⟩ } detouredFiles).result = .ok told ∧
          (((detouredRequest ⟨"out"⟩).withDryRun false).resultInOrder ⟨default, 1⟩ (.standard .production)
            { workingDirectory := ⟨"/w"⟩ } detouredFiles [⟨"x.jsx"⟩, ⟨"dist/x.jsx/b.jsx"⟩] order).2 = .ok found ∧
          told.Foretells found := by
  intro order hmem
  have hallowed : (detouredRequest ⟨"out"⟩).outputViolation? detouredFiles { workingDirectory := ⟨"/w"⟩ } =
      none := by decide +kernel
  have horder : order.Perm [⟨"x.jsx"⟩, ⟨"dist/x.jsx/b.jsx"⟩] ∧
      (((detouredRequest ⟨"out"⟩).withDryRun false).settings (.standard .production)
        { workingDirectory := ⟨"/w"⟩ }).SparesLater detouredFiles detouredFiles order := by
    rcases List.mem_cons.mp hmem with rfl | hlast
    · exact ⟨.refl _, by decide +kernel⟩
    · obtain rfl := List.mem_singleton.mp hlast
      exact ⟨.swap _ _ _, by decide +kernel⟩
  obtain ⟨_, told, htold, _, hall⟩ := (dryRun_foretells (detouredRequest ⟨"out"⟩) ⟨default, 0⟩ ⟨default, 1⟩
    (.standard .production) { workingDirectory := ⟨"/w"⟩ } detouredFiles).2.2 _ (inputs_detouredFiles hallowed)
  obtain ⟨_, hreal, hforetells⟩ := hall order horder.1
  rcases hreal with ⟨found, hfound⟩ | ⟨path, fault, hpath, _⟩
  · exact ⟨horder.2, told, found, htold, hfound, hforetells horder.2 found hfound⟩
  · cases hpath

/-- A result takes the place of the link that leads to an input, and the input is no longer found. -/
theorem dryRun_misses_link :
    (detouredRequest ⟨"dist"⟩).inputs { workingDirectory := ⟨"/w"⟩ } detouredFiles =
        .ok [⟨"x.jsx"⟩, ⟨"dist/x.jsx/b.jsx"⟩] ∧
      (∀ target ∈ (detouredRequest ⟨"dist"⟩).targets ⟨"/w"⟩ [⟨"x.jsx"⟩, ⟨"dist/x.jsx/b.jsx"⟩],
        ∀ input ∈ [(⟨"x.jsx"⟩ : Path), ⟨"dist/x.jsx/b.jsx"⟩],
          target ≠ input ∧ detouredFiles.place target ≠ detouredFiles.place input) ∧
      ∃ told found,
        (((detouredRequest ⟨"dist"⟩).withDryRun true).runWith ⟨default, 0⟩ (.standard .production)
          { workingDirectory := ⟨"/w"⟩ } detouredFiles).result = .ok told ∧
        (((detouredRequest ⟨"dist"⟩).withDryRun false).runWith ⟨default, 0⟩ (.standard .production)
          { workingDirectory := ⟨"/w"⟩ } detouredFiles).result = .ok found ∧
        told.files = [("x.jsx", { output := some "dist/x.jsx" }),
          ("dist/x.jsx/b.jsx", { output := some "dist/dist/x.jsx/b.jsx" })] ∧
        found.files = [("x.jsx", { output := some "dist/x.jsx" }),
          ("dist/x.jsx/b.jsx", { error := some "Not a directory (os error 20)" })] := by
  have hallowed : (detouredRequest ⟨"dist"⟩).outputViolation? detouredFiles { workingDirectory := ⟨"/w"⟩ } =
      none := by decide +kernel
  have hchosen := inputs_detouredFiles hallowed
  have hdry : ((detouredRequest ⟨"dist"⟩).withDryRun true).inputs { workingDirectory := ⟨"/w"⟩ } detouredFiles =
      .ok [⟨"x.jsx"⟩, ⟨"dist/x.jsx/b.jsx"⟩] := hchosen
  have hreal : ((detouredRequest ⟨"dist"⟩).withDryRun false).inputs { workingDirectory := ⟨"/w"⟩ } detouredFiles =
      .ok [⟨"x.jsx"⟩, ⟨"dist/x.jsx/b.jsx"⟩] := hchosen
  exact ⟨hchosen, by decide +kernel, _, _, (runWith_of_ok _ _ hdry).2, (runWith_of_ok _ _ hreal).2,
    by decide +kernel, by decide +kernel⟩

end BuildRequest

end BreakpointProps
