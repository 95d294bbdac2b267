import BreakpointProps.Proofs.FileSystem.Walk
import BreakpointProps.Proofs.Path.Steps

/-!
The way along a path, and what a change leaves of it: where directories are made and files come and go,
everything else is kept, and so is what can be said of a way.
-/

namespace BreakpointProps.FileSystem

variable {files after later : FileSystem} {path : Path}

section Along

/-- Where the steps of a path start. -/
def start (files : FileSystem) (path : Path) : Place := origin path files.workingDirectory

theorem IsTree.isGrounded_start (htree : files.IsTree) (path : Path) :
    files.IsGrounded (files.start path) := by
  unfold start origin
  split
  · exact isGrounded_nil
  · exact htree.isGrounded htree.workingDirectory

/-- A path leads to a place exactly if it can be followed and its steps lead there. -/
theorem place_eq_ok_iff {place : Place} :
    files.place path = .ok place ↔
      pathFault? path = none ∧ files.walk true maxLinks (files.start path) path.route = .ok place := by
  rw [FileSystem.place, walkFrom, start]
  cases pathFault? path <;> simp

/-- The places that the names in a path stand for. -/
def onWay (files : FileSystem) (path : Path) : List Place := entered (files.start path) path.steps

/-- Does a path start at a directory and lead through no link? -/
structure IsPlain (files : FileSystem) (path : Path) : Prop where
  grounded : files.IsGrounded (files.start path)
  noLink : ∀ place ∈ files.onWay path, ¬ files.IsLinkAt place

/-- Are there only directories where a path leads through? -/
structure LeadsClear (files : FileSystem) (path : Path) : Prop where
  fault : path.text = "" ∨ pathFault? path = none
  clear : files.IsClear (files.start path) path.steps

/-- Can everything that a path leads through be a directory? -/
structure IsPassable (files : FileSystem) (path : Path) : Prop where
  fault : path.text = "" ∨ pathFault? path = none
  short : AreShort path.steps
  free : ∀ place ∈ files.onWay path, files.node? place = none ∨ files.node? place = some .directory

/-- Does a path lead through no file? -/
def MeetsNoFile (files : FileSystem) (path : Path) : Prop :=
  ∀ place ∈ files.onWay path, ∀ content, files.node? place ≠ some (.file content)

theorem LeadsClear.isPassable (hclear : files.LeadsClear path) : files.IsPassable path :=
  ⟨hclear.fault, hclear.clear.short, fun place hplace => Or.inr (hclear.clear.directories place hplace)⟩

/-- What a slash at the end means makes no difference for where a path leads. -/
theorem ending_route (start : Place) : ending start path.route = ending start path.steps := by
  unfold Path.route
  split
  · exact ending_append start path.steps [.stay]
  · rw [List.append_nil]

theorem entered_route (start : Place) : entered start path.route = entered start path.steps := by
  unfold Path.route
  split
  · rw [entered_append]
    exact List.append_nil _
  · rw [List.append_nil]

theorem isClear_route_iff {start : Place} :
    files.IsClear start path.route ↔ files.IsClear start path.steps := by
  unfold Path.route
  split
  · rw [isClear_append]
    exact and_iff_left isClear_stay
  · rw [List.append_nil]

theorem isDirectory_eq_true_iff :
    files.isDirectory path = true ↔
      ∃ place, files.place path = .ok place ∧ files.node? place = some .directory := by
  unfold isDirectory nodeAt
  cases hplace : files.place path with
  | error fault => simp [bind, Except.bind]
  | ok place =>
      cases hnode : files.node? place with
      | none => simp [bind, Except.bind, hnode]
      | some node => cases node <;> simp [bind, Except.bind, hnode]

/-- A path without links leads to a directory exactly if everything on its way is one. -/
theorem isDirectory_iff (hplain : files.IsPlain path) (htext : path.text ≠ "") :
    files.isDirectory path = true ↔ files.LeadsClear path := by
  rw [isDirectory_eq_true_iff]
  constructor
  · rintro ⟨place, hplace, hnode⟩
    obtain ⟨hfault, hwalk⟩ := place_eq_ok_iff.mp hplace
    refine ⟨Or.inr hfault, isClear_route_iff.mp (isClear_of_walk (fun place hmem => ?_) hwalk hnode)⟩
    rw [entered_route] at hmem
    exact hplain.noLink place hmem
  · intro hclear
    have hroute := isClear_route_iff.mpr hclear.clear
    have hadvance : files.advance true (files.start path) (path.route ++ []) =
        files.advance true (ending (files.start path) path.route) [] := advance_append hroute
    rw [List.append_nil] at hadvance
    exact ⟨_, place_eq_ok_iff.mpr ⟨hclear.fault.resolve_left htext, walk_of_advance hadvance⟩,
      (isGrounded_ending hplain.grounded hroute.directories).node?⟩

end Along

section Slot

/-- The slot of a path whose last step is not to a name is in use. -/
theorem slot_eq (files : FileSystem) (hfault : pathFault? path = none) :
    files.slot path = (do
      let directory ← files.walk true maxLinks (files.start path) (path.steps.dropLast ++ [.stay])
      match path.steps.getLast? with
      | some (.down name) =>
        if name.utf8ByteSize > maxName then .error .nameTooLong else .ok (directory, name)
      | _ => .error .busy) := by
  unfold slot walkFrom
  rw [hfault]
  rfl

theorem slot_of_fault {fault : Fault} (hfault : pathFault? path = some fault) :
    files.slot path = .error fault := by
  unfold slot walkFrom
  rw [hfault]
  rfl

/-- A path has a slot exactly if it leads to a directory with a name behind it that is short enough. -/
theorem slot_eq_ok_iff {directory : Place} {name : String} :
    files.slot path = .ok (directory, name) ↔
      pathFault? path = none ∧
        files.walk true maxLinks (files.start path) (path.steps.dropLast ++ [.stay]) = .ok directory ∧
        path.steps.getLast? = some (.down name) ∧ name.utf8ByteSize ≤ maxName := by
  rw [slot, walkFrom, ← start]
  cases pathFault? path with
  | some fault => simp [bind, Except.bind]
  | none =>
      cases files.walk true maxLinks (files.start path) (path.steps.dropLast ++ [.stay]) with
      | error fault => simp [bind, Except.bind]
      | ok found =>
          dsimp only [bind, Except.bind]
          rcases path.steps.getLast? with _ | (_ | _ | last)
          · simp
          · simp
          · simp
          · simp only [true_and, Except.ok.injEq, Option.some.injEq, Step.down.injEq]
            by_cases hlong : last.utf8ByteSize > maxName
            · rw [if_pos hlong]
              constructor
              · intro hslot
                cases hslot
              · rintro ⟨-, rfl, hshort⟩
                exact absurd hlong (Nat.not_lt.mpr hshort)
            · rw [if_neg hlong, Except.ok.injEq, Prod.mk.injEq]
              refine and_congr_right fun _ => ⟨?_, And.left⟩
              rintro rfl
              exact ⟨rfl, Nat.not_lt.mp hlong⟩

/-- What moving something comes to when it is there and the new path ends in a name. -/
theorem move_eq {source target : Path} {sourceDirectory targetDirectory : Place} {sourceName targetName : String}
    {node : Node} (hsource : files.slot source = .ok (sourceDirectory, sourceName))
    (htarget : files.slot target = .ok (targetDirectory, targetName)) (hslash : target.endsInSlash = false)
    (hnode : files.node? (sourceDirectory ++ [sourceName]) = some node) (hplain : node ≠ .directory) :
    files.move source target =
      if files.node? (targetDirectory ++ [targetName]) = some .directory then .error .isDirectory
      else .ok ((files.erase (sourceDirectory ++ [sourceName])).put (targetDirectory ++ [targetName]) node) := by
  unfold move
  simp only [hsource, htarget, bind, Except.bind, hnode, hslash, Bool.false_eq_true, if_false]
  cases node with
  | directory => exact absurd rfl hplain
  | _ =>
      cases files.node? (targetDirectory ++ [targetName]) with
      | none => rfl
      | some found => cases found <;> rfl

end Slot

section Kept

/-- Is a place empty, or is a file there? -/
def IsOpen (files : FileSystem) (place : Place) : Prop :=
  ∀ node, files.node? place = some node → ∃ content, node = .file content

/-- Directories have been made at some of the places, and files have come or gone at others of them. -/
structure Kept (made written : List Place) (files after : FileSystem) : Prop where
  workingDirectory : after.workingDirectory = files.workingDirectory
  nodes : ∀ place, after.node? place = files.node? place ∨
    (files.node? place = none ∧ after.node? place = some .directory ∧ place ∈ made) ∨
    (place ∈ written ∧ place ∉ made ∧ files.IsOpen place ∧ after.IsOpen place)

variable {made written : List Place}

theorem Kept.refl (made written : List Place) (files : FileSystem) : Kept made written files files :=
  ⟨rfl, fun _ => Or.inl rfl⟩

theorem Kept.trans (hafter : Kept made written files after) (hlater : Kept made written after later) :
    Kept made written files later := by
  refine ⟨hlater.workingDirectory.trans hafter.workingDirectory, fun place => ?_⟩
  rcases hafter.nodes place with hsame | ⟨hnone, hmade, hplace⟩ | ⟨hwritten, hother, hopen, hopen'⟩
  · unfold IsOpen
    rw [← hsame]
    exact hlater.nodes place
  · rcases hlater.nodes place with hsame | ⟨hmissing, _⟩ | ⟨_, hother, _⟩
    · exact Or.inr (Or.inl ⟨hnone, hsame.trans hmade, hplace⟩)
    · exact absurd (hmade.symm.trans hmissing) nofun
    · exact absurd hplace hother
  · rcases hlater.nodes place with hsame | ⟨_, _, hplace⟩ | ⟨_, _, _, hopen''⟩
    · refine Or.inr (Or.inr ⟨hwritten, hother, hopen, ?_⟩)
      unfold IsOpen at hopen' ⊢
      rwa [hsame]
    · exact absurd hplace hother
    · exact Or.inr (Or.inr ⟨hwritten, hother, hopen, hopen''⟩)

theorem Kept.mono {more : List Place} (hafter : Kept made written files after) (hwritten : written ⊆ more) :
    Kept made more files after := by
  refine ⟨hafter.workingDirectory, fun place => (hafter.nodes place).imp_right (Or.imp_right ?_)⟩
  rintro ⟨hplace, hrest⟩
  exact ⟨hwritten hplace, hrest⟩

theorem Kept.widen {more : List Place} (hafter : Kept made [] files after) (hmade : made ⊆ more) :
    Kept more written files after := by
  refine ⟨hafter.workingDirectory, fun place => ?_⟩
  rcases hafter.nodes place with hsame | ⟨hnone, hdirectory, hplace⟩ | ⟨hplace, _⟩
  · exact Or.inl hsame
  · exact Or.inr (Or.inl ⟨hnone, hdirectory, hmade hplace⟩)
  · exact absurd hplace List.not_mem_nil

theorem Kept.start (hafter : Kept made written files after) : after.start path = files.start path := by
  rw [FileSystem.start, hafter.workingDirectory]
  rfl

theorem Kept.onWay (hafter : Kept made written files after) : after.onWay path = files.onWay path := by
  rw [FileSystem.onWay, hafter.start]
  rfl

/-- What is no file stays, and so does a file where none is written. -/
theorem Kept.node? {place : Place} {node : Node} (hafter : Kept made written files after)
    (hnode : files.node? place = some node) (hstays : place ∉ written ∨ ∀ content, node ≠ .file content) :
    after.node? place = some node := by
  rcases hafter.nodes place with hsame | ⟨hnone, _⟩ | ⟨hwritten, _, hopen, _⟩
  · exact hsame.trans hnode
  · exact absurd (hnode.symm.trans hnone) nofun
  · rcases hstays with hother | hother
    · exact absurd hwritten hother
    · obtain ⟨content, hfile⟩ := hopen node hnode
      exact absurd hfile (hother content)

theorem Kept.directory {place : Place} (hafter : Kept made written files after)
    (hnode : files.node? place = some .directory) : after.node? place = some .directory :=
  hafter.node? hnode (Or.inr nofun)

theorem Kept.isLinkAt {place : Place} (hafter : Kept made written files after)
    (hlink : after.IsLinkAt place) : files.IsLinkAt place := by
  obtain ⟨target, hnode⟩ := hlink
  rcases hafter.nodes place with hsame | ⟨_, hmade, _⟩ | ⟨_, _, _, hopen⟩
  · exact ⟨target, hsame.symm.trans hnode⟩
  · exact absurd (hnode.symm.trans hmade) (by simp)
  · obtain ⟨content, hfile⟩ := hopen _ hnode
    cases hfile

theorem Kept.isClear {start : Place} {steps : List Step} (hafter : Kept made written files after)
    (hclear : files.IsClear start steps) : after.IsClear start steps :=
  ⟨hclear.short, fun place hplace => hafter.directory (hclear.directories place hplace)⟩

theorem Kept.isPlain (hafter : Kept made written files after) (hplain : files.IsPlain path) :
    after.IsPlain path :=
  ⟨fun above habove => hafter.directory (hplain.grounded above (hafter.start ▸ habove)),
    fun place hplace hlink => hplain.noLink place (hafter.onWay ▸ hplace) (hafter.isLinkAt hlink)⟩

/-- Where only directories are made, a file stays if it is there, and none comes. -/
theorem Kept.node?_of_mem_made {place : Place} (hafter : Kept made written files after)
    (hplace : place ∈ made) :
    after.node? place = files.node? place ∨
      (files.node? place = none ∧ after.node? place = some .directory) := by
  rcases hafter.nodes place with hsame | ⟨hnone, hmade, _⟩ | ⟨_, hother, _⟩
  · exact Or.inl hsame
  · exact Or.inr ⟨hnone, hmade⟩
  · exact absurd hplace hother

theorem Kept.isPassable_iff (hafter : Kept made written files after) (hmade : files.onWay path ⊆ made) :
    after.IsPassable path ↔ files.IsPassable path := by
  constructor
  · rintro ⟨hfault, hshort, hfree⟩
    refine ⟨hfault, hshort, fun place hplace => ?_⟩
    rcases hafter.node?_of_mem_made (hmade hplace) with hsame | ⟨hnone, _⟩
    · exact hsame ▸ hfree place (hafter.onWay ▸ hplace)
    · exact Or.inl hnone
  · rintro ⟨hfault, hshort, hfree⟩
    refine ⟨hfault, hshort, fun place hplace => ?_⟩
    have hplace := hafter.onWay ▸ hplace
    rcases hafter.node?_of_mem_made (hmade hplace) with hsame | ⟨_, hdirectory⟩
    · exact hsame ▸ hfree place hplace
    · exact Or.inr hdirectory

theorem Kept.meetsNoFile (hafter : Kept made written files after) (hmade : files.onWay path ⊆ made)
    (hfiles : files.MeetsNoFile path) : after.MeetsNoFile path := by
  intro place hplace content hnode
  have hplace := hafter.onWay ▸ hplace
  rcases hafter.node?_of_mem_made (hmade hplace) with hsame | ⟨_, hdirectory⟩
  · exact hfiles place hplace content (hsame ▸ hnode)
  · exact absurd (hnode.symm.trans hdirectory) (by simp)

theorem kept_putDirectory {place : Place} (hplace : place ∈ made) (hroot : place ≠ [])
    (hnode : files.node? place = none) : Kept made [] files (files.put place .directory) := by
  refine ⟨rfl, fun other => ?_⟩
  by_cases hother : other = place
  · rw [hother]
    exact Or.inr (Or.inl ⟨hnode, node?_put_self hroot, hplace⟩)
  · exact Or.inl (node?_put_of_ne hother)

end Kept

end BreakpointProps.FileSystem
