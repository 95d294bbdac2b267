import Mathlib.Data.List.Nodup
import BreakpointProps.Build.File
import BreakpointProps.Proofs.FileSystem.Writing

/-!
Writing one result of a build: the directories that it stands in are made, and the text is written. Whether
that succeeds does not depend on what was written to other places before.
-/

namespace BreakpointProps

open FileSystem (Place temporary entered passed ending)

namespace FileSystem

variable {files now after : FileSystem} {path : Path} {name : String}

section Parent

/-- What a path stands in. -/
def parentOf (path : Path) : Path := .ofComponents path.components.dropLast

theorem start_parentOf (hends : path.EndsIn name) :
    files.start (parentOf path) = files.start path := by
  have habsolute : (parentOf path).isAbsolute = path.isAbsolute := by
    rw [Bool.eq_iff_iff, parentOf, Path.isAbsolute_ofComponents_iff (Path.isTrail_dropLast path),
      ← Path.root_mem_components_iff]
    conv => rhs; rw [hends.components]
    simp
  rw [start, start, origin, origin, habsolute]

/-- A path that ends in a name stands in what its parent leads through. -/
theorem onWay_parentOf (hends : path.EndsIn name) : files.onWay (parentOf path) = files.above path := by
  rw [onWay, above, ← entered_filter_stay, ← entered_filter_stay (files.start path), parentOf,
    hends.filter_steps]
  rw [← parentOf, start_parentOf hends]

theorem isClear_parentOf_iff (hends : path.EndsIn name) :
    files.IsClear (files.start (parentOf path)) (parentOf path).steps ↔
      files.IsClear (files.start path) path.steps.dropLast := by
  have hshort : AreShort (parentOf path).steps ↔ AreShort path.steps.dropLast := by
    rw [← areShort_filter_stay, parentOf, hends.filter_steps, areShort_filter_stay]
  have hentered : entered (files.start (parentOf path)) (parentOf path).steps =
      entered (files.start path) path.steps.dropLast := by
    have hway : files.onWay (parentOf path) = files.above path := onWay_parentOf hends
    rwa [onWay, above] at hway
  constructor
  · intro hclear
    refine ⟨hshort.mp hclear.short, fun place hplace => hclear.directories place ?_⟩
    rwa [hentered]
  · intro hclear
    refine ⟨hshort.mpr hclear.short, fun place hplace => hclear.directories place ?_⟩
    rwa [hentered] at hplace

theorem above_subset_onWay : files.above path ⊆ files.onWay path := fun _ => mem_onWay_of_dropLast

end Parent

section Apart

/-- Can texts be written to the targets without getting in the way of each other or of the inputs? No two
stand for one place, none stands where another leads through, none is an input, and there are no links
on the way. -/
structure AreApart (files : FileSystem) (targets inputs : List Path) : Prop where
  distinct : (targets.map files.spot).Nodup
  noneAbove : ∀ target ∈ targets, ∀ other ∈ targets, other ≠ target →
    files.spot target ∉ passed (files.start other) other.steps
  noInput : ∀ target ∈ targets, ∀ input ∈ inputs, files.place input ≠ .ok (files.spot target)
  noLink : ∀ target ∈ targets, ∀ place ∈ files.onWay target, ¬ files.IsLinkAt place

instance decidableAreApart (files : FileSystem) (targets inputs : List Path) :
    Decidable (files.AreApart targets inputs) :=
  decidable_of_iff
    ((targets.map files.spot).Nodup ∧
      (∀ target ∈ targets, ∀ other ∈ targets, other ≠ target →
        files.spot target ∉ passed (files.start other) other.steps) ∧
      (∀ target ∈ targets, ∀ input ∈ inputs, (files.place input).toOption ≠ some (files.spot target)) ∧
      ∀ target ∈ targets, ∀ place ∈ files.onWay target, ¬ files.IsLinkAt place)
    ⟨fun ⟨hdistinct, hnoneAbove, hnoInput, hnoLink⟩ => ⟨hdistinct, hnoneAbove,
      fun target htarget input hinput hplace => hnoInput target htarget input hinput (hplace ▸ rfl), hnoLink⟩,
    fun hapart => ⟨hapart.distinct, hapart.noneAbove, fun target htarget input hinput hplace =>
      hapart.noInput target htarget input hinput (by
        cases hfound : files.place input with
        | error fault => rw [hfound] at hplace; exact absurd hplace nofun
        | ok place => rw [hfound] at hplace; exact congrArg Except.ok (Option.some.inj hplace)),
      hapart.noLink⟩⟩

/-- The places where directories may be made for the targets. -/
def roads (files : FileSystem) (targets : List Path) : List Place := targets.flatMap files.above

variable {targets inputs : List Path} {written : List Place}

theorem AreApart.isPlain (hapart : files.AreApart targets inputs) (htree : files.IsTree)
    (htarget : path ∈ targets) : files.IsPlain path :=
  ⟨htree.isGrounded_start path, hapart.noLink path htarget⟩

theorem AreApart.isPlain_parentOf (hapart : files.AreApart targets inputs) (htree : files.IsTree)
    (htarget : path ∈ targets) (hends : path.EndsIn name) : files.IsPlain (parentOf path) :=
  ⟨htree.isGrounded_start _, fun place hplace =>
    hapart.noLink path htarget place (above_subset_onWay (onWay_parentOf hends ▸ hplace))⟩

theorem above_subset_roads (htarget : path ∈ targets) : files.above path ⊆ files.roads targets :=
  fun _ hplace => List.mem_flatMap.mpr ⟨path, htarget, hplace⟩

theorem mem_passed_of_mem_above {place : Place} (hplace : place ∈ files.above path) :
    place ∈ passed (files.start path) path.steps := by
  rcases List.eq_nil_or_concat path.steps with hnil | ⟨front, last, hsteps⟩
  · simp [above, hnil] at hplace
  · rw [List.concat_eq_append] at hsteps
    rw [above, hsteps, List.dropLast_concat] at hplace
    rw [hsteps]
    exact mem_passed_of_mem_entered hplace

/-- Of two targets, none stands where directories are made for the other. -/
theorem AreApart.spot_mem_above (hapart : files.AreApart targets inputs) (htarget : path ∈ targets)
    (hroad : files.spot path ∈ files.roads targets) : files.spot path ∈ files.above path := by
  obtain ⟨other, hother, habove⟩ := List.mem_flatMap.mp hroad
  by_cases hsame : other = path
  · exact hsame ▸ habove
  · exact absurd (mem_passed_of_mem_above habove) (hapart.noneAbove path htarget other hother hsame)

/-- Where a file can be written at a target, no directory is made. -/
theorem AreApart.spot_not_mem_roads (hapart : files.AreApart targets inputs)
    (hkept : Kept (files.roads targets) written files now) (htarget : path ∈ targets)
    (hvacant : now.IsVacant path) : files.spot path ∉ files.roads targets := by
  intro hroad
  have habove := hapart.spot_mem_above htarget hroad
  rw [← hkept.above, ← hkept.spot] at habove
  exact hvacant.spot_not_mem_above habove

/-- A text that stands at a target stays when texts are written to other places. -/
theorem Holds.later {more : List Place} {text : String} (hholds : now.Holds path text)
    (hapart : files.AreApart targets inputs) (hkept : Kept (files.roads targets) written files now)
    (hlater : Kept (files.roads targets) more now after) (hpath : path ∈ targets)
    (hother : files.spot path ∉ more) : after.Holds path text := by
  obtain ⟨hvacant, hnode⟩ := hholds
  refine ⟨hlater.isVacant hvacant ?_, ?_⟩
  · rw [hkept.spot]
    exact hapart.spot_not_mem_roads hkept hpath hvacant
  · rw [hlater.spot]
    refine hlater.node? hnode (Or.inl ?_)
    rwa [hkept.spot]

theorem AreApart.spot_ne (hapart : files.AreApart targets inputs) {other : Path} (htarget : path ∈ targets)
    (hother : other ∈ targets) (hne : path ≠ other) : files.spot path ≠ files.spot other :=
  fun hsame => hne (List.inj_on_of_nodup_map hapart.distinct htarget hother hsame)

/-- Once the way to a target is clear, it is known from the start whether a directory is in its place. -/
theorem AreApart.directory_iff (hapart : files.AreApart targets inputs)
    (hkept : Kept (files.roads targets) written files now) (htarget : path ∈ targets)
    (hclear : now.IsClear (now.start path) path.steps.dropLast) :
    now.node? (now.spot path) = some .directory ↔
      files.node? (files.spot path) = some .directory ∨ files.spot path ∈ files.above path := by
  rw [hkept.spot]
  constructor
  · intro hnode
    rcases hkept.nodes (files.spot path) with hsame | ⟨_, _, hroad⟩ | ⟨_, _, _, hopen⟩
    · exact Or.inl (hsame ▸ hnode)
    · exact Or.inr (hapart.spot_mem_above htarget hroad)
    · obtain ⟨content, hfile⟩ := hopen _ hnode
      cases hfile
  · rintro (hnode | habove)
    · exact hkept.directory hnode
    · rw [← hkept.above] at habove
      exact hclear.directories _ habove

end Apart

section Output

variable {text : String}

theorem writeOutput_eq (hends : path.EndsIn name) :
    files.writeOutput path text =
      match files.makeDirectories (parentOf path) with
      | (after, .error fault) => (after, .error (.files fault))
      | (after, .ok ()) =>
        ((after.writeAtomic path text).1, (after.writeAtomic path text).2.mapError (.output path)) := by
  rw [writeOutput, hends.parent?, ← parentOf]
  dsimp only
  generalize files.makeDirectories (parentOf path) = result
  obtain ⟨after, made⟩ := result
  cases made <;> rfl

/-- Is no directory missing before a file on the way to a path? -/
def IsDirect (files : FileSystem) (path : Path) : Prop :=
  files.MeetsNoFile (parentOf path) ∨ files.makeDirectory (parentOf path) ≠ .error .missing

/-- Is a directory in the place of a path, or made there on the way to it? -/
def IsBlocked (files : FileSystem) (path : Path) : Prop :=
  files.node? (files.spot path) = some .directory ∨ files.spot path ∈ files.above path

instance (files : FileSystem) (path : Path) : Decidable (files.IsBlocked path) :=
  inferInstanceAs (Decidable (_ ∨ _))

/-- What a write comes to once the directories are there. -/
def verdict (files : FileSystem) (path : Path) (name : String) : Except Fault Unit :=
  match pathFault? (temporary path) with
  | some fault => .error fault
  | none =>
    if (name ++ ".tmp").utf8ByteSize > maxName then .error .nameTooLong
    else if files.IsBlocked (temporary path) ∨ files.IsBlocked path then .error .isDirectory
    else .ok ()

end Output

section Atomic

variable {targets inputs : List Path} {written : List Place} {text : String}

theorem temporary_ne (path : Path) : temporary path ≠ path := by
  intro hsame
  have hlength := congrArg (fun p : Path => p.text.toList.length) hsame
  simp [temporary, Path.extended] at hlength

variable (hapart : files.AreApart targets inputs) (htree : files.IsTree)
variable (hkept : Kept (files.roads targets) written files now)
variable (hpath : path ∈ targets) (htemporary : temporary path ∈ targets)

include hapart htree hkept hpath htemporary

theorem written_of_kept : Written now path text (now.writeAtomic path text) := by
  refine written_writeAtomic (hkept.isPlain (hapart.isPlain htree hpath))
    (hkept.isPlain (hapart.isPlain htree htemporary)) ?_
  rw [hkept.spot, hkept.spot]
  exact hapart.spot_ne hpath htemporary (temporary_ne path).symm

/-- Writing to a target changes the places of the target and of what is written before it. -/
theorem kept_writeAtomic :
    Kept (files.roads targets) [files.spot path, files.spot (temporary path)] now
      (now.writeAtomic path text).1 := by
  have hwritten : Written now path text _ := written_of_kept hapart htree hkept hpath htemporary
  rw [← hkept.spot, ← hkept.spot]
  refine hwritten.kept (fun hvacant => ?_) fun hvacant => ?_
  · rw [hkept.spot]
    exact hapart.spot_not_mem_roads hkept htemporary hvacant
  · rw [hkept.spot]
    exact hapart.spot_not_mem_roads hkept hpath hvacant

/-- A text that was written to a target stands in its place. -/
theorem holds_writeAtomic (hok : (now.writeAtomic path text).2 = .ok ()) :
    (now.writeAtomic path text).1.Holds path text := by
  have hwritten : Written now path text _ := written_of_kept hapart htree hkept hpath htemporary
  generalize now.writeAtomic path text = result at hwritten hok
  obtain ⟨after, outcome⟩ := result
  obtain rfl := hok
  exact hwritten.holds

end Atomic

section Same

variable {targets inputs : List Path} {written : List Place} {text : String}

theorem onWay_parentOf_subset (files : FileSystem) (hpath : path ∈ targets) (hends : path.EndsIn name) :
    files.onWay (parentOf path) ⊆ files.roads targets := by
  rw [onWay_parentOf hends]
  exact above_subset_roads hpath

variable (hapart : files.AreApart targets inputs) (htree : files.IsTree)
variable (hkept : Kept (files.roads targets) written files now)
variable (hpath : path ∈ targets) (hends : path.EndsIn name)

include hapart htree hkept hpath hends

theorem making_of_kept : Making now (parentOf path) (now.makeDirectories (parentOf path)) :=
  making_makeDirectories (Path.isTrail_dropLast path)
    (hkept.isPlain (hapart.isPlain_parentOf htree hpath hends))

/-- Only directories above a target are made for it. -/
theorem kept_makeDirectories :
    Kept (files.roads targets) [] now (now.makeDirectories (parentOf path)).1 := by
  have hmade := (making_of_kept hapart htree hkept hpath hends).kept
  rw [hkept.onWay] at hmade
  exact hmade.widen (onWay_parentOf_subset files hpath hends)

/-- Where the directories cannot be made, nothing is written. -/
theorem writeOutput_of_stuck (hstuck : ¬ files.IsPassable (parentOf path)) :
    ∃ fault, (now.makeDirectories (parentOf path)).2 = .error fault ∧
      (now.writeOutput path text).2 = .error (.files fault) := by
  have hroads := onWay_parentOf_subset files hpath hends
  have hmade : (now.makeDirectories (parentOf path)).2 = .ok () ↔ now.IsPassable (parentOf path) :=
    makeDirectories_eq_ok_iff (Path.isTrail_dropLast path)
      (hkept.isPlain (hapart.isPlain_parentOf htree hpath hends))
  rw [hkept.isPassable_iff hroads] at hmade
  rw [writeOutput_eq hends]
  generalize now.makeDirectories (parentOf path) = result at hmade
  obtain ⟨after, made⟩ := result
  cases made with
  | ok => exact absurd (hmade.mp rfl) hstuck
  | error fault => exact ⟨fault, rfl, rfl⟩

/-- Where a directory cannot be made, the fault is that of the start if no directory is missing before it. -/
theorem makeDirectories_same (hstuck : ¬ files.IsPassable (parentOf path)) (hdirect : files.IsDirect path) :
    (now.makeDirectories (parentOf path)).2 = (files.makeDirectories (parentOf path)).2 := by
  have hroads := onWay_parentOf_subset files hpath hends
  have hstuck' : ¬ now.IsPassable (parentOf path) := fun h => hstuck ((hkept.isPassable_iff hroads).mp h)
  rcases hdirect with hfiles | hmissing
  · have hnow := making_of_kept hapart htree hkept hpath hends
    have hstart := making_of_kept hapart htree (.refl _ [] files) hpath hends
    generalize now.makeDirectories (parentOf path) = result at hnow
    generalize files.makeDirectories (parentOf path) = result' at hstart
    cases hnow with
    | done hmade hclear => exact absurd (hmade.isPassable hclear) hstuck'
    | stuck _ _ hnoFile =>
        cases hstart with
        | done hmade hclear => exact absurd (hmade.isPassable hclear) hstuck
        | stuck _ _ hnoFile' =>
            exact congrArg Except.error
              ((hnoFile (hkept.meetsNoFile hroads hfiles)).trans (hnoFile' hfiles).symm)
  · refine makeDirectories_congr (Path.isTrail_dropLast path) (hapart.isPlain_parentOf htree hpath hends)
      (hkept.isPlain (hapart.isPlain_parentOf htree hpath hends)) hkept.start
      (fun place hplace node hnode => ?_) hstuck hstuck' hmissing
    rcases hkept.node?_of_mem_made (hroads hplace) with hsame | ⟨hnone, _⟩
    · exact hsame.trans hnode
    · exact absurd (hnode.symm.trans hnone) nofun

/-- Where the directories can be made, a write comes to what is known from the start. -/
theorem writeOutput_of_isPassable (htemporary : temporary path ∈ targets)
    (hpassable : files.IsPassable (parentOf path)) :
    (now.writeOutput path text).2 = (files.verdict path name).mapError (.output path) := by
  have hroads := onWay_parentOf_subset files hpath hends
  have hmaking := making_of_kept hapart htree hkept hpath hends
  have hmade := (kept_makeDirectories hapart htree hkept hpath hends).mono (List.nil_subset written)
  rw [writeOutput_eq hends]
  generalize now.makeDirectories (parentOf path) = result at hmaking hmade
  cases hmaking with
  | stuck _ hstuck => exact absurd ((hkept.isPassable_iff hroads).mpr hpassable) hstuck
  | @done after _ hclear =>
      have hafter : Kept (files.roads targets) written files after := hkept.trans hmade
      have hdirectories := (isClear_parentOf_iff hends).mp hclear.clear
      have hsteps' : (temporary path).steps.dropLast = path.steps.dropLast := by
        rw [hends.temporary, List.dropLast_concat]
      have hstart : after.start (temporary path) = after.start path := by
        rw [start, start, origin, origin, Path.isAbsolute_temporary]
      have hblocked := hapart.directory_iff hafter hpath hdirectories
      have hblocked' := hapart.directory_iff hafter htemporary (by rwa [hsteps', hstart])
      have hother : after.spot path ≠ after.spot (temporary path) := by
        rw [hafter.spot, hafter.spot]
        exact hapart.spot_ne hpath htemporary (temporary_ne path).symm
      dsimp only
      rw [writeAtomic_of_isClear hends.text_ne hends.steps hends.temporary (by simp) hends.slash
        (hafter.isPlain (hapart.isPlain htree htemporary)) hother hdirectories]
      unfold verdict
      congr 1
      cases pathFault? (temporary path) with
      | some fault => rfl
      | none =>
          dsimp only
          by_cases hlong : (name ++ ".tmp").utf8ByteSize > maxName
          · rw [if_pos hlong, if_pos hlong]
          · rw [if_neg hlong, if_neg hlong]
            by_cases hfirst : files.IsBlocked (temporary path)
            · rw [if_pos (hblocked'.mpr hfirst), if_pos (Or.inl hfirst)]
            · rw [if_neg fun h => hfirst (hblocked'.mp h)]
              by_cases hsecond : files.IsBlocked path
              · rw [if_pos (hblocked.mpr hsecond), if_pos (Or.inr hsecond)]
              · rw [if_neg fun h => hsecond (hblocked.mp h), if_neg (not_or.mpr ⟨hfirst, hsecond⟩)]

end Same

section Goal

variable {targets inputs : List Path} {written : List Place} {text : String}

/-- Is a path a target together with what is written before it, and does it end in a name? -/
structure IsGoal (targets : List Path) (path : Path) : Prop where
  mem : path ∈ targets
  before : temporary path ∈ targets
  ends : ∃ name, path.EndsIn name

variable (hapart : files.AreApart targets inputs) (htree : files.IsTree)
variable (hkept : Kept (files.roads targets) written files now) (hgoal : IsGoal targets path)

include hapart htree hkept hgoal

/-- Writing a result changes the places of the result and of what is written before it. -/
theorem kept_writeOutput :
    Kept (files.roads targets) [files.spot path, files.spot (temporary path)] now
      (now.writeOutput path text).1 := by
  obtain ⟨hpath, htemporary, name, hends⟩ := hgoal
  have hafter := kept_makeDirectories hapart htree hkept hpath hends
  rw [writeOutput_eq hends]
  generalize now.makeDirectories (parentOf path) = result at hafter
  obtain ⟨after, made⟩ := result
  cases made with
  | error fault => exact hafter.mono (List.nil_subset _)
  | ok =>
      exact (hafter.mono (List.nil_subset _)).trans (kept_writeAtomic hapart htree
        (hkept.trans (hafter.mono (List.nil_subset _))) hpath htemporary)

/-- A result that was written stands in its place. -/
theorem holds_writeOutput (hwritten : (now.writeOutput path text).2 = .ok ()) :
    (now.writeOutput path text).1.Holds path text := by
  obtain ⟨hpath, htemporary, name, hends⟩ := hgoal
  have hafter := kept_makeDirectories hapart htree hkept hpath hends
  rw [writeOutput_eq hends] at hwritten ⊢
  generalize now.makeDirectories (parentOf path) = result at hafter hwritten
  obtain ⟨after, made⟩ := result
  cases made with
  | error fault => exact absurd hwritten nofun
  | ok =>
      refine holds_writeAtomic hapart htree (hkept.trans (hafter.mono (List.nil_subset _))) hpath
        htemporary ?_
      dsimp only at hwritten
      cases hok : (after.writeAtomic path text).2 with
      | ok => rfl
      | error fault => exact absurd (hok ▸ hwritten) nofun

/-- A result can be written exactly if it could be written at the start. -/
theorem writeOutput_eq_ok_iff :
    (now.writeOutput path text).2 = .ok () ↔ (files.writeOutput path text).2 = .ok () := by
  obtain ⟨hpath, htemporary, name, hends⟩ := hgoal
  by_cases hpassable : files.IsPassable (parentOf path)
  · rw [writeOutput_of_isPassable hapart htree hkept hpath hends htemporary hpassable,
      writeOutput_of_isPassable hapart htree (.refl _ [] files) hpath hends htemporary hpassable]
  · obtain ⟨_, _, hnow⟩ := writeOutput_of_stuck hapart htree hkept hpath hends hpassable
    obtain ⟨_, _, hstart⟩ := writeOutput_of_stuck hapart htree (.refl _ [] files) hpath hends hpassable
    rw [hnow, hstart]
    exact iff_of_false nofun nofun

/-- What it comes to is the same unless a directory is missing before a file on the way. -/
theorem writeOutput_same (hdirect : files.IsDirect path) :
    (now.writeOutput path text).2 = (files.writeOutput path text).2 := by
  obtain ⟨hpath, htemporary, name, hends⟩ := hgoal
  by_cases hpassable : files.IsPassable (parentOf path)
  · rw [writeOutput_of_isPassable hapart htree hkept hpath hends htemporary hpassable,
      writeOutput_of_isPassable hapart htree (.refl _ [] files) hpath hends htemporary hpassable]
  · obtain ⟨fault, hfault, hnow⟩ := writeOutput_of_stuck hapart htree hkept hpath hends hpassable
    obtain ⟨fault', hfault', hstart⟩ :=
      writeOutput_of_stuck hapart htree (.refl _ [] files) hpath hends hpassable
    have hsame := makeDirectories_same hapart htree hkept hpath hends hpassable hdirect
    rw [hfault, hfault'] at hsame
    rw [hnow, hstart, Except.error.inj hsame]

end Goal

end FileSystem

end BreakpointProps
