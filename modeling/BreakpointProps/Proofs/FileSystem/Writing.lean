import BreakpointProps.Proofs.FileSystem.Directories
import BreakpointProps.Proofs.FileSystem.Touching

/-!
Writing a file beside its place and moving it there. What such a write changes is confined to two places
that were empty or held files, and what it changes does not get in the way of other writes.
-/

namespace BreakpointProps.FileSystem

variable {files after : FileSystem} {path : Path}

section Vacant

/-- The place that a path stands for. -/
def spot (files : FileSystem) (path : Path) : Place := ending (files.start path) path.steps

/-- The places that the names before the last one in a path stand for. -/
def above (files : FileSystem) (path : Path) : List Place :=
  entered (files.start path) path.steps.dropLast

/-- Can a file be written at a path? -/
structure IsVacant (files : FileSystem) (path : Path) : Prop where
  fault : pathFault? path = none
  slash : path.endsInSlash = false
  last : ∃ name, path.steps = path.steps.dropLast ++ [.down name] ∧ name.utf8ByteSize ≤ maxName
  clear : files.IsClear (files.start path) path.steps.dropLast
  free : files.IsOpen (files.spot path)

theorem spot_of_steps {name : String} (hsteps : path.steps = path.steps.dropLast ++ [.down name]) :
    files.spot path = ending (files.start path) path.steps.dropLast ++ [name] := by
  have hending := ending_append (files.start path) path.steps.dropLast [.down name]
  rwa [← hsteps] at hending

theorem IsVacant.spot_ne_nil (hvacant : files.IsVacant path) : files.spot path ≠ [] := by
  obtain ⟨name, hsteps, _⟩ := hvacant.last
  simp [spot_of_steps hsteps]

/-- The directories above a vacant place are there, so none of them is that place. -/
theorem IsVacant.spot_not_mem_above (hvacant : files.IsVacant path) : files.spot path ∉ files.above path := by
  intro habove
  obtain ⟨content, hfile⟩ := hvacant.free _ (hvacant.clear.directories _ habove)
  cases hfile

/-- A file that was written where it could be is what the path leads to. -/
theorem nodeAt_of_isVacant {content : ByteArray} (hvacant : files.IsVacant path)
    (hnode : files.node? (files.spot path) = some (.file content)) :
    files.nodeAt path = .ok (.file content) := by
  obtain ⟨name, hsteps, hname⟩ := hvacant.last
  rw [spot_of_steps hsteps] at hnode
  have hroute : path.route = path.steps := by simp [Path.route, hvacant.slash]
  have hwalk : files.walk true maxLinks (files.start path) path.route =
      .ok (ending (files.start path) path.steps.dropLast ++ [name]) := by
    refine walk_of_advance ?_
    rw [hroute, hsteps, List.dropLast_concat, advance_append hvacant.clear,
      advance_short hname, hnode]
    rfl
  rw [nodeAt, place_eq_ok_iff.mpr ⟨hvacant.fault, hwalk⟩]
  simp [bind, Except.bind, hnode]

variable {made written : List Place}

theorem Kept.spot (hafter : Kept made written files after) : after.spot path = files.spot path := by
  rw [FileSystem.spot, hafter.start]
  rfl

theorem Kept.above (hafter : Kept made written files after) : after.above path = files.above path := by
  rw [FileSystem.above, hafter.start]
  rfl

theorem Kept.isVacant (hafter : Kept made written files after) (hvacant : files.IsVacant path)
    (hmade : files.spot path ∉ made) : after.IsVacant path := by
  refine ⟨hvacant.fault, hvacant.slash, hvacant.last, ?_, ?_⟩
  · rw [hafter.start]
    exact hafter.isClear hvacant.clear
  · rw [hafter.spot]
    intro node hnode
    rcases hafter.nodes (files.spot path) with hsame | ⟨_, _, hplace⟩ | ⟨_, _, _, hopen⟩
    · exact hvacant.free node (hsame ▸ hnode)
    · exact absurd hplace hmade
    · exact hopen node hnode

end Vacant

section Write

variable {name : String} {content : ByteArray}

/-- What writing a file comes to where everything before its name is a directory. -/
theorem write_of_isClear (hfault : pathFault? path = none) (hslash : path.endsInSlash = false)
    (hsteps : path.steps = path.steps.dropLast ++ [.down name])
    (hclear : files.IsClear (files.start path) path.steps.dropLast)
    (hlink : ¬ files.IsLinkAt (files.spot path)) :
    files.write path content =
      if name.utf8ByteSize > maxName then .error .nameTooLong
      else if files.node? (files.spot path) = some .directory then .error .isDirectory
      else .ok (files.put (files.spot path) (.file content)) := by
  have hgoal : path.goal? = some name := by
    rw [Path.goal?, hslash, hsteps, List.getLast?_concat]
    rfl
  have hadvance : files.advance true (files.start path) (path.steps.dropLast ++ [.stay]) =
      .ok (.arrived (ending (files.start path) path.steps.dropLast)) := advance_append hclear
  rw [spot_of_steps hsteps] at hlink ⊢
  rw [write, destination, hfault]
  dsimp only
  rw [hgoal, ← start, destinationAlong.eq_def]
  dsimp only
  rw [hadvance]
  dsimp only [bind, Except.bind]
  split
  · rfl
  · cases hnode : files.node? (ending (files.start path) path.steps.dropLast ++ [name]) with
    | none => rfl
    | some node =>
        cases node with
        | file content => rfl
        | directory => rfl
        | link target => exact absurd ⟨target, hnode⟩ hlink

theorem isOpen_of_ne {place : Place} (hlink : ¬ files.IsLinkAt place)
    (hnode : files.node? place ≠ some .directory) : files.IsOpen place := by
  intro node hfound
  cases node with
  | file content => exact ⟨content, rfl⟩
  | directory => exact absurd hfound hnode
  | link target => exact absurd ⟨target, hfound⟩ hlink

theorem mem_onWay_spot (hsteps : path.steps = path.steps.dropLast ++ [.down name]) :
    files.spot path ∈ files.onWay path := by
  have hplace := mem_entered_of_down (files.start path) path.steps.dropLast [] name
  rwa [← hsteps, ← spot_of_steps hsteps] at hplace

/-- A file is written only where that is possible, and nothing else changes. -/
theorem isVacant_of_write (hplain : files.IsPlain path) (hslash : path.endsInSlash = false)
    (hsteps : path.steps = path.steps.dropLast ++ [.down name])
    (hwrite : files.write path content = .ok after) :
    files.IsVacant path ∧ after = files.put (files.spot path) (.file content) := by
  have hlink := hplain.noLink _ (mem_onWay_spot hsteps)
  obtain ⟨directory, last, hslot⟩ : ∃ directory last, files.slot path = .ok (directory, last) := by
    cases hplace : files.destination path with
    | error fault =>
        rw [write, hplace] at hwrite
        cases hwrite
    | ok place =>
        obtain ⟨_, _, directory, last, hslot, _⟩ := slot_of_destination hplace
        exact ⟨directory, last, hslot⟩
  obtain ⟨hfault, hwalk, _⟩ := slot_eq_ok_iff.mp hslot
  have hclear : files.IsClear (files.start path) path.steps.dropLast := by
    have hway := way_dropLast hplain
    rw [hwalk] at hway
    cases hway with
    | clear hclear => exact hclear
  rw [write_of_isClear hfault hslash hsteps hclear hlink] at hwrite
  split at hwrite
  · cases hwrite
  · rename_i hlong
    split at hwrite
    · cases hwrite
    · rename_i hnode
      exact ⟨⟨hfault, hslash, ⟨name, hsteps, Nat.not_lt.mp hlong⟩, hclear, isOpen_of_ne hlink hnode⟩,
        (Except.ok.inj hwrite).symm⟩

end Write

section Move

variable {source : Path} {name : String} {content : ByteArray}

theorem slot_of_isClear (hfault : pathFault? path = none)
    (hsteps : path.steps = path.steps.dropLast ++ [.down name]) (hname : name.utf8ByteSize ≤ maxName)
    (hclear : files.IsClear (files.start path) path.steps.dropLast) :
    files.slot path = .ok (ending (files.start path) path.steps.dropLast, name) := by
  have hlast : path.steps.getLast? = some (.down name) := by
    rw [hsteps, List.getLast?_concat]
  exact slot_eq_ok_iff.mpr ⟨hfault, walk_of_isClear hclear, hlast, hname⟩

/-- What moving a file comes to where everything before its new name is a directory. -/
theorem move_of_isClear (hsource : files.IsVacant source)
    (hfile : files.node? (files.spot source) = some (.file content))
    (hfault : pathFault? path = none) (hslash : path.endsInSlash = false)
    (hsteps : path.steps = path.steps.dropLast ++ [.down name]) (hname : name.utf8ByteSize ≤ maxName)
    (hclear : files.IsClear (files.start path) path.steps.dropLast) :
    files.move source path =
      if files.node? (files.spot path) = some .directory then .error .isDirectory
      else .ok ((files.erase (files.spot source)).put (files.spot path) (.file content)) := by
  obtain ⟨sourceName, hsourceSteps, hsourceName⟩ := hsource.last
  rw [spot_of_steps hsourceSteps] at hfile ⊢
  rw [spot_of_steps hsteps]
  exact move_eq (slot_of_isClear hsource.fault hsourceSteps hsourceName hsource.clear)
    (slot_of_isClear hfault hsteps hname hclear) hslash hfile (by simp)

/-- A file is moved only to where one can be written. -/
theorem isVacant_of_move (hplain : files.IsPlain path) (hsource : files.IsVacant source)
    (hfile : files.node? (files.spot source) = some (.file content))
    (hmove : files.move source path = .ok after) :
    files.IsVacant path ∧ after = (files.erase (files.spot source)).put (files.spot path) (.file content) := by
  obtain ⟨sourceName, hsourceSteps, hsourceName⟩ := hsource.last
  have hslot := slot_of_isClear hsource.fault hsourceSteps hsourceName hsource.clear
  cases htarget : files.slot path with
  | error fault =>
      unfold move at hmove
      rw [hslot, htarget] at hmove
      exact absurd hmove nofun
  | ok place =>
      obtain ⟨directory, name⟩ := place
      obtain ⟨hfault, hsteps, hclear, hname, _⟩ := slot_inv hplain htarget
      have hslash : path.endsInSlash = false := by
        rw [← Bool.not_eq_true]
        intro hslash
        unfold move at hmove
        rw [spot_of_steps hsourceSteps] at hfile
        simp [hslot, htarget, bind, Except.bind, hfile, hslash] at hmove
      rw [move_of_isClear hsource hfile hfault hslash hsteps hname hclear] at hmove
      split at hmove
      · exact absurd hmove nofun
      · rename_i hnode
        have hlink := hplain.noLink _ (mem_onWay_spot hsteps)
        exact ⟨⟨hfault, hslash, ⟨name, hsteps, hname⟩, hclear, isOpen_of_ne hlink hnode⟩,
          (Except.ok.inj hmove).symm⟩

end Move

section Atomic

variable {text : String}

/-- What writing a text beside its place and moving it there can come to: nothing was written, the text
was left beside its place, or it stands where it belongs. -/
inductive Written (files : FileSystem) (path : Path) (text : String) :
    FileSystem × Except Fault Unit → Prop where
  | refused {fault : Fault} : Written files path text (files, .error fault)
  | left {fault : Fault} (htemporary : files.IsVacant (temporary path)) :
    Written files path text
      (files.put (files.spot (temporary path)) (.file text.toUTF8), .error fault)
  | done (htemporary : files.IsVacant (temporary path)) (hpath : files.IsVacant path) :
    Written files path text
      (((files.put (files.spot (temporary path)) (.file text.toUTF8)).erase
        (files.spot (temporary path))).put (files.spot path) (.file text.toUTF8), .ok ())

theorem kept_put {made written : List Place} {place : Place} {content : ByteArray}
    (hplace : place ≠ []) (hwritten : place ∈ written) (hmade : place ∉ made) (hopen : files.IsOpen place) :
    Kept made written files (files.put place (.file content)) := by
  refine ⟨rfl, fun other => ?_⟩
  by_cases hother : other = place
  · rw [hother]
    refine Or.inr (Or.inr ⟨hwritten, hmade, hopen, fun node hnode => ⟨content, ?_⟩⟩)
    exact (Option.some.inj ((node?_put_self hplace).symm.trans hnode)).symm
  · exact Or.inl (node?_put_of_ne hother)

/-- A place where a file has just been written was no directory before. -/
theorem isClear_of_put {place start : Place} {steps : List Step} {content : ByteArray} (hplace : place ≠ [])
    (hclear : (files.put place (.file content)).IsClear start steps) : files.IsClear start steps := by
  refine ⟨hclear.short, fun other hother => ?_⟩
  have hnode := hclear.directories other hother
  by_cases hsame : other = place
  · rw [hsame, node?_put_self hplace] at hnode
    exact absurd hnode (by simp)
  · rwa [node?_put_of_ne hsame] at hnode

theorem steps_temporary (path : Path) :
    ∃ name, (temporary path).steps = (temporary path).steps.dropLast ++ [.down name] := by
  obtain ⟨front, last, _, _, hsteps⟩ := Path.exists_steps_temporary path
  exact ⟨_, by rw [hsteps, List.dropLast_concat]⟩

theorem written_writeAtomic (hplain : files.IsPlain path) (htemporary : files.IsPlain (temporary path))
    (hother : files.spot path ≠ files.spot (temporary path)) :
    Written files path text (files.writeAtomic path text) := by
  obtain ⟨name, hsteps⟩ := steps_temporary path
  have hslash := Path.endsInSlash_temporary path
  rw [writeAtomic_eq]
  cases hwrite : files.write (temporary path) text.toUTF8 with
  | error fault => exact .refused
  | ok written =>
      obtain ⟨hvacant, rfl⟩ := isVacant_of_write htemporary hslash hsteps hwrite
      have hnil := hvacant.spot_ne_nil
      have hkept : Kept [] [files.spot (temporary path)] files
          (files.put (files.spot (temporary path)) (.file text.toUTF8)) :=
        kept_put hnil List.mem_cons_self List.not_mem_nil hvacant.free
      dsimp only
      cases hmove :
          (files.put (files.spot (temporary path)) (.file text.toUTF8)).move (temporary path) path with
      | error fault => exact .left hvacant
      | ok moved =>
          obtain ⟨hpath, rfl⟩ := isVacant_of_move (hkept.isPlain hplain)
            (hkept.isVacant hvacant List.not_mem_nil) (hkept.spot ▸ node?_put_self hnil) hmove
          rw [hkept.spot, hkept.spot]
          refine .done hvacant ⟨hpath.fault, hpath.slash, hpath.last, isClear_of_put hnil hpath.clear, ?_⟩
          intro node hnode
          refine hpath.free node ?_
          rw [hkept.spot, node?_put_of_ne hother]
          exact hnode

/-- What is written beside its place and moved there changes the two places only. -/
theorem Written.kept {made : List Place} {result : FileSystem × Except Fault Unit}
    (hwritten : Written files path text result)
    (htemporary : files.IsVacant (temporary path) → files.spot (temporary path) ∉ made)
    (hpath : files.IsVacant path → files.spot path ∉ made) :
    Kept made [files.spot path, files.spot (temporary path)] files result.1 := by
  cases hwritten with
  | refused => exact .refl made _ files
  | left hvacant =>
      exact kept_put hvacant.spot_ne_nil (by simp) (htemporary hvacant) hvacant.free
  | done hvacant hvacant' =>
      refine ⟨rfl, fun place => ?_⟩
      dsimp only
      by_cases hspot : place = files.spot path
      · rw [hspot]
        refine Or.inr (Or.inr ⟨by simp, hpath hvacant', hvacant'.free, fun node hnode => ⟨text.toUTF8, ?_⟩⟩)
        exact (Option.some.inj ((node?_put_self hvacant'.spot_ne_nil).symm.trans hnode)).symm
      · rw [node?_put_of_ne hspot]
        by_cases hbeside : place = files.spot (temporary path)
        · rw [hbeside] at hspot ⊢
          refine Or.inr (Or.inr ⟨by simp, htemporary hvacant, hvacant.free, fun node hnode => ?_⟩)
          rw [node?_put_of_ne hspot, node?_erase_self hvacant.spot_ne_nil] at hnode
          exact absurd hnode nofun
        · rw [node?_erase_of_ne hbeside, node?_put_of_ne hbeside]
          exact Or.inl rfl

/-- Does a text stand where a path says, so that it could be written there again? -/
def Holds (files : FileSystem) (path : Path) (text : String) : Prop :=
  files.IsVacant path ∧ files.node? (files.spot path) = some (.file text.toUTF8)

theorem Holds.nodeAt (hholds : files.Holds path text) : files.nodeAt path = .ok (.file text.toUTF8) :=
  nodeAt_of_isVacant hholds.1 hholds.2

/-- A text that was written where it belongs stands there. -/
theorem Written.holds (hwritten : Written files path text (after, .ok ())) : after.Holds path text := by
  have hkept : Kept [] [files.spot path, files.spot (temporary path)] files after :=
    hwritten.kept (fun _ => List.not_mem_nil) fun _ => List.not_mem_nil
  cases hwritten with
  | done hvacant hpath =>
      refine ⟨hkept.isVacant hpath List.not_mem_nil, ?_⟩
      rw [hkept.spot]
      exact node?_put_self hpath.spot_ne_nil

/-- Where the directories are there, it depends on the path and on whether directories have the two places
what a write comes to. -/
theorem writeAtomic_of_isClear {name name' : String} (htext : path.text ≠ "")
    (hsteps : path.steps = path.steps.dropLast ++ [.down name])
    (hsteps' : (temporary path).steps = path.steps.dropLast ++ [.down name'])
    (hlength : name.utf8ByteSize ≤ name'.utf8ByteSize) (hslash : path.endsInSlash = false)
    (htemporary : files.IsPlain (temporary path)) (hother : files.spot path ≠ files.spot (temporary path))
    (hclear : files.IsClear (files.start path) path.steps.dropLast) :
    (files.writeAtomic path text).2 =
      match pathFault? (temporary path) with
      | some fault => .error fault
      | none =>
        if name'.utf8ByteSize > maxName then .error .nameTooLong
        else if files.node? (files.spot (temporary path)) = some .directory then .error .isDirectory
        else if files.node? (files.spot path) = some .directory then .error .isDirectory
        else .ok () := by
  have hstart : files.start (temporary path) = files.start path := by
    rw [start, start, origin, origin, Path.isAbsolute_temporary]
  have hdrop : (temporary path).steps.dropLast = path.steps.dropLast := by
    rw [hsteps', List.dropLast_concat]
  rw [writeAtomic_eq]
  cases hfault : pathFault? (temporary path) with
  | some fault =>
      rw [write, destination, hfault]
      rfl
  | none =>
      have hwrite : files.write (temporary path) text.toUTF8 = _ :=
        write_of_isClear hfault (Path.endsInSlash_temporary path) (hdrop ▸ hsteps')
          (by rw [hstart, hdrop]; exact hclear) (htemporary.noLink _ (mem_onWay_spot (hdrop ▸ hsteps')))
      rw [hwrite]
      dsimp only
      by_cases hlong : name'.utf8ByteSize > maxName
      · rw [if_pos hlong, if_pos hlong]
      · rw [if_neg hlong, if_neg hlong]
        by_cases hbeside : files.node? (files.spot (temporary path)) = some .directory
        · rw [if_pos hbeside, if_pos hbeside]
        · rw [if_neg hlong, if_neg hbeside] at hwrite
          rw [if_neg hbeside, if_neg hbeside]
          obtain ⟨hvacant, _⟩ := isVacant_of_write htemporary (Path.endsInSlash_temporary path)
            (hdrop ▸ hsteps') hwrite
          have hnil := hvacant.spot_ne_nil
          have hkept : Kept [] [files.spot (temporary path)] files
              (files.put (files.spot (temporary path)) (.file text.toUTF8)) :=
            kept_put hnil List.mem_cons_self List.not_mem_nil hvacant.free
          have hmove : (files.put (files.spot (temporary path)) (.file text.toUTF8)).move (temporary path)
              path = _ :=
            move_of_isClear (hkept.isVacant hvacant List.not_mem_nil) (hkept.spot ▸ node?_put_self hnil)
              (Path.pathFault?_of_prefix hfault htext) hslash hsteps
              (Nat.le_trans hlength (Nat.not_lt.mp hlong)) (hkept.start ▸ hkept.isClear hclear)
          rw [hkept.spot, hkept.spot, node?_put_of_ne hother] at hmove
          dsimp only
          rw [hmove]
          by_cases hdirectory : files.node? (files.spot path) = some .directory
          · rw [if_pos hdirectory, if_pos hdirectory]
          · rw [if_neg hdirectory, if_neg hdirectory]

end Atomic

end BreakpointProps.FileSystem
