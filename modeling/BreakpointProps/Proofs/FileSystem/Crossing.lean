import BreakpointProps.Proofs.FileSystem.Ways

/-!
What reading a path depends on: the links on the way and what stands at the end of it. While these stay as
they are and directories stay directories, the path reads the same, whatever else changes.
-/

namespace BreakpointProps.FileSystem

variable {files after later : FileSystem} {places : List Place}

section Stays

/-- Does what stands at some places stay there, and each directory wherever it is? -/
structure Stays (places : List Place) (files after : FileSystem) : Prop where
  workingDirectory : after.workingDirectory = files.workingDirectory
  directory : ∀ place, files.node? place = some .directory → after.node? place = some .directory
  node : ∀ place ∈ places, ∀ node, files.node? place = some node → after.node? place = some node

theorem Stays.refl (places : List Place) (files : FileSystem) : Stays places files files :=
  ⟨rfl, fun _ hnode => hnode, fun _ _ _ hnode => hnode⟩

theorem Stays.trans (hafter : Stays places files after) (hlater : Stays places after later) :
    Stays places files later := by
  refine ⟨hlater.workingDirectory.trans hafter.workingDirectory, fun place hnode => ?_,
    fun place hplace node hnode => ?_⟩
  · exact hlater.directory place (hafter.directory place hnode)
  · exact hlater.node place hplace node (hafter.node place hplace node hnode)

theorem Stays.mono {fewer : List Place} (hafter : Stays places files after) (hfewer : fewer ⊆ places) :
    Stays fewer files after :=
  ⟨hafter.workingDirectory, hafter.directory, fun place hplace => hafter.node place (hfewer hplace)⟩

/-- What happens at one place only leaves the others as they are. -/
theorem stays_of_forall_ne {place : Place} (hworking : after.workingDirectory = files.workingDirectory)
    (hsame : ∀ other, other ≠ place → after.node? other = files.node? other)
    (hplace : place ∈ places → files.node? place = none) (hnode : files.node? place ≠ some .directory) :
    Stays places files after := by
  refine ⟨hworking, fun other hother => ?_, fun other hmem node hother => ?_⟩
  · rw [hsame, hother]
    rintro rfl
    exact hnode hother
  · rw [hsame, hother]
    rintro rfl
    cases (hplace hmem).symm.trans hother

theorem stays_put {place : Place} {node : Node} (hplace : place ∈ places → files.node? place = none)
    (hnode : files.node? place ≠ some .directory) : Stays places files (files.put place node) :=
  stays_of_forall_ne rfl (fun _ hother => node?_put_of_ne hother) hplace hnode

theorem stays_erase {place : Place} (hplace : place ∈ places → files.node? place = none)
    (hnode : files.node? place ≠ some .directory) : Stays places files (files.erase place) :=
  stays_of_forall_ne rfl (fun _ hother => node?_erase_of_ne hother) hplace hnode

end Stays

section Crossing

variable {start place : Place} {steps : List Step} {links : Nat} {path : Path}

/-- Where steps stop: at the first place that is no directory, or where they end. -/
def stop (files : FileSystem) : Place → List Step → Place
  | place, [] => place
  | place, .stay :: rest => stop files place rest
  | place, .up :: rest => stop files place.dropLast rest
  | place, .down name :: rest =>
    if files.node? (place ++ [name]) = some .directory then stop files (place ++ [name]) rest
    else place ++ [name]

/-- The links on a way, and the place at the end of it. -/
def crossed (files : FileSystem) : Nat → Place → List Step → List Place
  | 0, start, steps => [files.stop start steps]
  | links + 1, start, steps =>
    files.stop start steps ::
      match files.advance true start steps with
      | .ok (.link directory target rest) => crossed files links (origin target directory) (target.route ++ rest)
      | _ => []

/-- The links that a path leads through, and the place that it leads to. -/
def crossing (files : FileSystem) (path : Path) : List Place :=
  files.crossed maxLinks (files.start path) path.route

/-- Steps that begin with a name lead on through a directory, up to a link, or to a file at their end. -/
theorem advance_down_eq_ok_iff {name : String} {found : Advance} :
    files.advance true start (.down name :: steps) = .ok found ↔
      name.utf8ByteSize ≤ maxName ∧
        ((files.node? (start ++ [name]) = some .directory ∧
            files.advance true (start ++ [name]) steps = .ok found) ∨
          (∃ target, files.node? (start ++ [name]) = some (.link target) ∧ found = .link start target steps) ∨
          ∃ content, files.node? (start ++ [name]) = some (.file content) ∧ steps = [] ∧
            found = .arrived (start ++ [name])) := by
  rcases Nat.lt_or_ge maxName name.utf8ByteSize with hlong | hname
  · simp [advance_long hlong, Nat.not_le.mpr hlong]
  · rw [advance_short hname, and_iff_right hname]
    cases files.node? (start ++ [name]) with
    | none => simp
    | some node =>
        cases node with
        | directory => simp
        | link target => simp [@eq_comm _ found]
        | file content => cases steps <;> simp [@eq_comm _ found]

/-- A walk ends where its steps arrive, or goes on behind the link that they come to. -/
theorem walk_eq_ok_iff :
    files.walk true links start steps = .ok place ↔
      files.advance true start steps = .ok (.arrived place) ∨
        ∃ fewer directory target rest, links = fewer + 1 ∧
          files.advance true start steps = .ok (.link directory target rest) ∧
          files.walk true fewer (origin target directory) (target.route ++ rest) = .ok place := by
  cases links with
  | zero =>
      rw [walk]
      cases files.advance true start steps with
      | error fault => simp [bind, Except.bind]
      | ok found => cases found <;> simp [bind, Except.bind]
  | succ links =>
      rw [walk]
      cases files.advance true start steps with
      | error fault => simp [bind, Except.bind]
      | ok found => cases found <;> simp [bind, Except.bind]

theorem stop_of_advance (hadvance : files.advance true start steps = .ok (.arrived place)) :
    files.stop start steps = place := by
  induction steps generalizing start with
  | nil => exact Advance.arrived.inj (Except.ok.inj hadvance)
  | cons step rest ih =>
      cases step with
      | stay => exact ih hadvance
      | up => exact ih hadvance
      | down name =>
          rw [stop]
          rw [advance_down_eq_ok_iff] at hadvance
          obtain ⟨_, ⟨hnode, hrest⟩ | ⟨target, _, hlink⟩ | ⟨content, hnode, _, hend⟩⟩ := hadvance
          · rw [if_pos hnode]
            exact ih hrest
          · cases hlink
          · rw [if_neg (by simp [hnode])]
            exact (Advance.arrived.inj hend).symm

theorem stop_mem_crossed (files : FileSystem) (links : Nat) (start : Place) (steps : List Step) :
    files.stop start steps ∈ files.crossed links start steps := by
  cases links with
  | zero => exact List.mem_cons_self
  | succ links => exact List.mem_cons_self

/-- Steps that come anywhere come to the same while what they stop at stays. -/
theorem Stays.advance {found : Advance} (hafter : Stays places files after)
    (hstop : files.stop start steps ∈ places) (hadvance : files.advance true start steps = .ok found) :
    after.advance true start steps = .ok found := by
  induction steps generalizing start with
  | nil => exact hadvance
  | cons step rest ih =>
      cases step with
      | stay => exact ih hstop hadvance
      | up => exact ih hstop hadvance
      | down name =>
          rw [stop] at hstop
          rw [advance_down_eq_ok_iff] at hadvance ⊢
          obtain ⟨hshort, ⟨hnode, hrest⟩ | ⟨target, hnode, hlink⟩ | ⟨content, hnode, hend⟩⟩ := hadvance
          · rw [if_pos hnode] at hstop
            exact ⟨hshort, Or.inl ⟨hafter.directory _ hnode, ih hstop hrest⟩⟩
          · rw [if_neg (by simp [hnode])] at hstop
            exact ⟨hshort, Or.inr (Or.inl ⟨target, hafter.node _ hstop _ hnode, hlink⟩)⟩
          · rw [if_neg (by simp [hnode])] at hstop
            exact ⟨hshort, Or.inr (Or.inr ⟨content, hafter.node _ hstop _ hnode, hend⟩)⟩

/-- A way leads to the same place while what is crossed on it stays, and the place is among that. -/
theorem Stays.walk (hafter : Stays places files after) (hcrossed : files.crossed links start steps ⊆ places)
    (hwalk : files.walk true links start steps = .ok place) :
    after.walk true links start steps = .ok place ∧ place ∈ places := by
  induction links using Nat.strongRecOn generalizing start steps with
  | ind links ih =>
      have hstop := hcrossed (files.stop_mem_crossed links start steps)
      rcases walk_eq_ok_iff.mp hwalk with hadvance | ⟨fewer, directory, target, rest, rfl, hadvance, hrest⟩
      · exact ⟨walk_of_advance (hafter.advance hstop hadvance), stop_of_advance hadvance ▸ hstop⟩
      · rw [crossed, hadvance] at hcrossed
        obtain ⟨hwalk', hmem⟩ :=
          ih fewer (Nat.lt_succ_self fewer) (fun _ hplace => hcrossed (List.mem_cons_of_mem _ hplace)) hrest
        exact ⟨walk_eq_ok_iff.mpr (Or.inr ⟨_, _, _, _, rfl, hafter.advance hstop hadvance, hwalk'⟩), hmem⟩

/-- A path that leads to something reads the same while what it crosses stays. -/
theorem Stays.readText {node : Node} (hafter : Stays places files after)
    (hcrossing : files.crossing path ⊆ places) (hplace : files.place path = .ok place)
    (hnode : files.node? place = some node) : after.readText path = files.readText path := by
  obtain ⟨hfault, hwalk⟩ := place_eq_ok_iff.mp hplace
  have hstart : after.start path = files.start path := by
    rw [start, start, hafter.workingDirectory]
  obtain ⟨hwalk', hmem⟩ := hafter.walk hcrossing hwalk
  have hplace' : after.place path = .ok place := by
    rw [place_eq_ok_iff, hstart]
    exact ⟨hfault, hwalk'⟩
  have hnodeAt : after.nodeAt path = files.nodeAt path := by
    unfold nodeAt
    rw [hplace, hplace']
    simp only [bind, Except.bind, hnode, hafter.node place hmem node hnode]
  unfold FileSystem.readText
  rw [hnodeAt]

end Crossing

end BreakpointProps.FileSystem
