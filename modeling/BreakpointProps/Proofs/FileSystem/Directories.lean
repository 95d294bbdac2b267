import BreakpointProps.Proofs.FileSystem.Ways

/-!
Making a directory and all that it stands in. Where no link is on the way, only directories are made, and
only where the path leads through. It depends on what is on the way whether all of them can be made.
-/

namespace BreakpointProps.FileSystem

variable {files after : FileSystem} {path : Path}

section Attempt

/-- What an attempt to make a directory can come to. -/
inductive Attempt (files : FileSystem) (path : Path) : Except Fault FileSystem → Prop where
  | made {front : List Step} {name : String} (hfault : pathFault? path = none)
    (hsteps : path.steps = front ++ [.down name]) (hclear : files.IsClear (files.start path) front)
    (hname : name.utf8ByteSize ≤ maxName)
    (hnode : files.node? (ending (files.start path) front ++ [name]) = none) :
    Attempt files path (.ok (files.put (ending (files.start path) front ++ [name]) .directory))
  | gap {before after : List Step} {name : String} (hfault : pathFault? path = none)
    (hsteps : path.steps.dropLast = before ++ .down name :: after)
    (hclear : files.IsClear (files.start path) before) (hname : name.utf8ByteSize ≤ maxName)
    (hnode : files.node? (ending (files.start path) before ++ [name]) = none) :
    Attempt files path (.error .missing)
  | there {fault : Fault} (hfault : fault ≠ .missing) (hclear : files.LeadsClear path) :
    Attempt files path (.error fault)
  | stuck {fault : Fault} (hfault : fault ≠ .missing) (hstuck : ¬ files.IsPassable path)
    (hnoFile : files.MeetsNoFile path → fault = (pathFault? path).getD .nameTooLong) :
    Attempt files path (.error fault)

theorem pathFault?_cases {fault : Fault} (hfault : pathFault? path = some fault) :
    fault = .nulInName ∨ fault = .nameTooLong ∨ (fault = .missing ∧ path.text = "") := by
  unfold pathFault? at hfault
  split at hfault
  · exact Or.inl (Option.some.inj hfault).symm
  · split at hfault
    · rename_i hempty
      exact Or.inr (Or.inr ⟨(Option.some.inj hfault).symm, by simpa using hempty⟩)
    · split at hfault
      · exact Or.inr (Or.inl (Option.some.inj hfault).symm)
      · exact absurd hfault nofun

theorem not_isPassable_of_fault {fault : Fault} (htext : path.text ≠ "")
    (hfault : pathFault? path = some fault) : ¬ files.IsPassable path := by
  intro hpassable
  rcases hpassable.fault with hempty | hnone
  · exact htext hempty
  · exact absurd (hfault.symm.trans hnone) (by simp)

theorem makeDirectory_of_slot {fault : Fault} (hslot : files.slot path = .error fault)
    (hfault : fault ≠ .busy) : files.makeDirectory path = .error fault := by
  unfold makeDirectory
  rw [hslot]
  cases fault <;> first | rfl | exact absurd rfl hfault

theorem mem_onWay_of_dropLast {place : Place}
    (hplace : place ∈ entered (files.start path) path.steps.dropLast) : place ∈ files.onWay path := by
  rcases List.eq_nil_or_concat path.steps with hsteps | ⟨front, last, hsteps⟩
  · simp [hsteps] at hplace
  · rw [List.concat_eq_append] at hsteps
    rw [hsteps, List.dropLast_concat] at hplace
    rw [onWay, hsteps, entered_append]
    exact List.mem_append_left _ hplace

/-- What a walk to where the last name of a path stands can come to. -/
theorem way_dropLast (hplain : files.IsPlain path) :
    Way files (files.start path) path.steps.dropLast
      (files.walk true maxLinks (files.start path) (path.steps.dropLast ++ [.stay])) :=
  way_walk fun place hplace => hplain.noLink place (mem_onWay_of_dropLast hplace)

/-- What a slot says of its path. -/
theorem slot_inv {directory : Place} {name : String} (hplain : files.IsPlain path)
    (hslot : files.slot path = .ok (directory, name)) :
    pathFault? path = none ∧ path.steps = path.steps.dropLast ++ [.down name] ∧
      files.IsClear (files.start path) path.steps.dropLast ∧ name.utf8ByteSize ≤ maxName ∧
      directory = ending (files.start path) path.steps.dropLast := by
  obtain ⟨hfault, hwalk, hlast, hname⟩ := slot_eq_ok_iff.mp hslot
  have hsteps : path.steps = path.steps.dropLast ++ [.down name] :=
    (List.dropLast_append_getLast? _ hlast).symm
  have hway := way_dropLast hplain
  rw [hwalk] at hway
  cases hway with
  | clear hclear => exact ⟨hfault, hsteps, hclear, hname, rfl⟩

theorem mem_onWay_of_split {before after : List Step} {name : String}
    (hsteps : path.steps.dropLast = before ++ .down name :: after) :
    ending (files.start path) before ++ [name] ∈ files.onWay path :=
  mem_onWay_of_dropLast (hsteps ▸ mem_entered_of_down _ before after name)

/-- What a path meets is neither a file nor in the way if the path is passable. -/
theorem IsPassable.meetsNoFile (hpassable : files.IsPassable path) : files.MeetsNoFile path := by
  intro place hplace content hnode
  rcases hpassable.free place hplace with hnone | hdirectory
  · exact absurd (hnode.symm.trans hnone) nofun
  · exact absurd (hnode.symm.trans hdirectory) (by simp)

theorem makeDirectory_of_busy (hslot : files.slot path = .error .busy) :
    files.makeDirectory path = .error .alreadyThere := by
  unfold makeDirectory
  rw [hslot]

/-- An attempt where everything before the last name is a directory. -/
theorem attempt_of_isClear {front : List Step} {name : String} (hplain : files.IsPlain path)
    (hfault : pathFault? path = none) (hsteps : path.steps = front ++ [.down name])
    (hclear : files.IsClear (files.start path) front) : Attempt files path (files.makeDirectory path) := by
  have hslot := slot_eq files hfault
  rw [hsteps, List.dropLast_concat, List.getLast?_concat, walk_of_isClear hclear] at hslot
  change files.slot path = (if name.utf8ByteSize > maxName then _ else _) at hslot
  have hplace : ending (files.start path) front ++ [name] ∈ files.onWay path := by
    rw [onWay, hsteps]
    exact mem_entered_of_down _ front [] name
  by_cases hlong : name.utf8ByteSize > maxName
  · rw [if_pos hlong] at hslot
    rw [makeDirectory_of_slot hslot (by simp)]
    refine .stuck (by simp) (fun hpassable => ?_) fun _ => by rw [hfault]; rfl
    exact absurd (hpassable.short name (by simp [hsteps])) (Nat.not_le.mpr hlong)
  · rw [if_neg hlong] at hslot
    unfold makeDirectory
    rw [hslot]
    dsimp only
    cases hnode : files.node? (ending (files.start path) front ++ [name]) with
    | none => exact .made hfault hsteps hclear (Nat.not_lt.mp hlong) hnode
    | some node =>
        dsimp only
        cases node with
        | link target => exact absurd ⟨target, hnode⟩ (hplain.noLink _ hplace)
        | file content =>
            refine .stuck (by simp) (fun hpassable => ?_) fun hnoFile => absurd hnode (hnoFile _ hplace _)
            exact hpassable.meetsNoFile _ hplace _ hnode
        | directory =>
            refine .there (by simp) ⟨Or.inr hfault, hsteps ▸ isClear_append.mpr ⟨hclear, ?_⟩⟩
            exact isClear_down.mpr ⟨Nat.not_lt.mp hlong, hnode⟩

theorem attempt_makeDirectory (hplain : files.IsPlain path) (htext : path.text ≠ "") :
    Attempt files path (files.makeDirectory path) := by
  cases hfault : pathFault? path with
  | some fault =>
      have hother : fault ≠ .busy ∧ fault ≠ .missing := by
        rcases pathFault?_cases hfault with rfl | rfl | ⟨_, hempty⟩
        · exact ⟨nofun, nofun⟩
        · exact ⟨nofun, nofun⟩
        · exact absurd hempty htext
      rw [makeDirectory_of_slot (slot_of_fault hfault) hother.1]
      exact .stuck hother.2 (not_isPassable_of_fault htext hfault) fun _ => by rw [hfault]; rfl
  | none =>
      have hslot := slot_eq files hfault
      have hway := way_dropLast hplain
      generalize hwalk : files.walk true maxLinks (files.start path) (path.steps.dropLast ++ [.stay]) = result
        at hslot hway
      cases hway with
      | long hsteps hclear hlong =>
          rw [makeDirectory_of_slot hslot nofun]
          refine .stuck nofun (fun hpassable => ?_) fun _ => by rw [hfault]; rfl
          refine absurd (hpassable.short _ (List.dropLast_subset _ ?_)) (Nat.not_le.mpr hlong)
          exact hsteps ▸ List.mem_append_right _ List.mem_cons_self
      | gap hsteps hclear hname hnode =>
          rw [makeDirectory_of_slot hslot nofun]
          exact .gap hfault hsteps hclear hname hnode
      | blocked hsteps hclear hnode =>
          rw [makeDirectory_of_slot hslot nofun]
          refine .stuck nofun (fun hpassable => ?_) fun hnoFile => ?_
          · exact hpassable.meetsNoFile _ (mem_onWay_of_split hsteps) _ hnode
          · exact absurd hnode (hnoFile _ (mem_onWay_of_split hsteps) _)
      | clear hclear =>
          rcases List.eq_nil_or_concat path.steps with hnil | ⟨front, last, hsteps⟩
          · rw [hnil] at hslot
            rw [makeDirectory_of_busy hslot]
            exact .there nofun ⟨Or.inr hfault, hnil ▸ isClear_nil⟩
          · rw [List.concat_eq_append] at hsteps
            rw [hsteps, List.dropLast_concat, List.getLast?_concat] at hslot
            rw [hsteps, List.dropLast_concat] at hclear
            cases last with
            | down name => exact attempt_of_isClear hplain hfault hsteps hclear
            | stay =>
                rw [makeDirectory_of_busy hslot]
                exact .there nofun ⟨Or.inr hfault, hsteps ▸ isClear_append.mpr ⟨hclear, isClear_stay⟩⟩
            | up =>
                rw [makeDirectory_of_busy hslot]
                exact .there nofun ⟨Or.inr hfault, hsteps ▸ isClear_append.mpr ⟨hclear, isClear_up⟩⟩

/-- An attempt misses something only if a directory before the last name is not there. -/
theorem gap_of_makeDirectory (hplain : files.IsPlain path) (htext : path.text ≠ "")
    (hmissing : files.makeDirectory path = .error .missing) :
    pathFault? path = none ∧
      ∃ before name after, path.steps.dropLast = before ++ .down name :: after ∧
        files.IsClear (files.start path) before ∧
        files.node? (ending (files.start path) before ++ [name]) = none := by
  have hattempt := attempt_makeDirectory hplain htext
  rw [hmissing] at hattempt
  cases hattempt with
  | gap hfault hsteps hclear _ hnode => exact ⟨hfault, _, _, _, hsteps, hclear, hnode⟩
  | there hother => exact absurd rfl hother
  | stuck hother => exact absurd rfl hother

end Attempt

section Directories

/-- What is a directory after only directories were made on the way could have been one before. -/
theorem Kept.isPassable (hmade : Kept (files.onWay path) [] files after) (hclear : after.LeadsClear path) :
    files.IsPassable path := (hmade.isPassable_iff (List.Subset.refl _)).mp hclear.isPassable

/-- What making a directory and all that it stands in can come to. -/
inductive Making (files : FileSystem) (path : Path) : FileSystem × Except Fault Unit → Prop where
  | done {after : FileSystem} (hmade : Kept (files.onWay path) [] files after)
    (hclear : after.LeadsClear path) :
    Making files path (after, .ok ())
  | stuck {after : FileSystem} {fault : Fault} (hmade : Kept (files.onWay path) [] files after)
    (hstuck : ¬ files.IsPassable path)
    (hnoFile : files.MeetsNoFile path → fault = (pathFault? path).getD .nameTooLong) :
    Making files path (after, .error fault)

theorem pathsAlong_append_singleton {front : List Component} {c : Component}
    (htrail : IsTrail (front ++ [c])) :
    pathsAlong (.ofComponents (front ++ [c])) =
      .ofComponents (front ++ [c]) :: pathsAlong (.ofComponents front) := by
  have hfront := Path.isTrail_front htrail
  unfold pathsAlong
  rw [Path.components_ofComponents htrail, Path.components_ofComponents hfront, List.length_append,
    List.length_singleton, List.range_succ, List.reverse_append, List.map_append]
  simp only [List.reverse_singleton, List.map_singleton, List.singleton_append]
  congr 1
  · rw [List.take_of_length_le (by simp)]
  · refine List.map_congr_left fun last hlast => ?_
    rw [List.mem_reverse, List.mem_range] at hlast
    rw [List.take_append_of_le_length (by omega)]

/-- Of a path that is put together from components, the path before the last one leads along the same
way, as far as it goes. -/
theorem steps_of_front {front : List Component} {c : Component} (htrail : IsTrail (front ++ [c])) :
    (Path.ofComponents (front ++ [c])).steps =
      (Path.ofComponents front).steps ++ c.step?.toList := by
  rw [Path.steps_ofComponents htrail, Path.steps_ofComponents (Path.isTrail_front htrail),
    List.filterMap_append]
  cases h : c.step? <;> simp [h]

theorem start_of_front {front : List Component} {c : Component} (htrail : IsTrail (front ++ [c]))
    (hfront : front ≠ []) :
    files.start (.ofComponents (front ++ [c])) = files.start (.ofComponents front) := by
  unfold start origin
  rw [Path.ofComponents_append_singleton, Path.isAbsolute_join,
    Path.isAbsolute_ofComponent_of_isTrail htrail hfront, Bool.false_or]

theorem onWay_of_front {front : List Component} {c : Component} (htrail : IsTrail (front ++ [c]))
    (hfront : front ≠ []) :
    files.onWay (.ofComponents front) ⊆ files.onWay (.ofComponents (front ++ [c])) := by
  intro place hplace
  rw [onWay, steps_of_front htrail, start_of_front htrail hfront, entered_append]
  exact List.mem_append_left _ hplace

theorem IsPassable.front {front : List Component} {c : Component} (htrail : IsTrail (front ++ [c]))
    (hfront : front ≠ []) (hpassable : files.IsPassable (.ofComponents (front ++ [c]))) :
    files.IsPassable (.ofComponents front) := by
  have htext := Path.text_ofComponents_ne (Path.isTrail_front htrail) hfront
  refine ⟨?_, ?_, fun place hplace => hpassable.free place (onWay_of_front htrail hfront hplace)⟩
  · rcases hpassable.fault with hempty | hnone
    · exact absurd hempty (Path.text_ofComponents_ne htrail (by simp))
    · rw [Path.ofComponents_append_singleton] at hnone
      exact Or.inr (Path.pathFault?_of_join hnone htext
        (Path.isAbsolute_ofComponent_of_isTrail htrail hfront))
  · have hshort := hpassable.short
    rw [steps_of_front htrail] at hshort
    exact (areShort_append.mp hshort).1

theorem Making.kept {result : FileSystem × Except Fault Unit} (hmaking : Making files path result) :
    Kept (files.onWay path) [] files result.1 := by
  cases hmaking with
  | done hmade => exact hmade
  | stuck hmade => exact hmade

theorem Making.of_kept {result : FileSystem × Except Fault Unit}
    (hafter : Kept (files.onWay path) [] files after) (hmaking : Making after path result) :
    Making files path result := by
  cases hmaking with
  | done hmade hclear => exact .done (hafter.trans (hafter.onWay ▸ hmade)) hclear
  | stuck hmade hstuck hnoFile =>
      exact .stuck (hafter.trans (hafter.onWay ▸ hmade))
        (fun h => hstuck ((hafter.isPassable_iff (List.Subset.refl _)).mpr h))
        fun h => hnoFile (hafter.meetsNoFile (List.Subset.refl _) h)

/-- Make a directory where it is known that what it stands in is there. -/
def makeLast (files : FileSystem) (path : Path) : FileSystem × Except Fault Unit :=
  match files.makeDirectory path with
  | .ok files => (files, .ok ())
  | .error fault => (files, if files.isDirectory path then .ok () else .error fault)

theorem makeAlong_of_missing {outer : List Path} (hmissing : files.makeDirectory path = .error .missing) :
    files.makeAlong (path :: outer) =
      match files.makeAlong outer with
      | (files, .error fault) => (files, .error fault)
      | (files, .ok ()) => files.makeLast path := by
  rw [makeAlong, hmissing]
  rfl

theorem makeAlong_of_not_missing {outer : List Path}
    (hmissing : files.makeDirectory path ≠ .error .missing) :
    files.makeAlong (path :: outer) = files.makeLast path := by
  rw [makeAlong, makeLast]
  cases hmake : files.makeDirectory path with
  | ok after => rfl
  | error fault =>
      cases fault <;> first | rfl | exact absurd hmake hmissing

theorem making_makeLast (hplain : files.IsPlain path) (htext : path.text ≠ "")
    (hmissing : files.makeDirectory path ≠ .error .missing) : Making files path (files.makeLast path) := by
  have hattempt := attempt_makeDirectory hplain htext
  unfold makeLast
  generalize files.makeDirectory path = result at hattempt hmissing
  cases hattempt with
  | gap => exact absurd rfl hmissing
  | made hfault hsteps hclear hname hnode =>
      rename_i front name
      have hplace : ending (files.start path) front ++ [name] ∈ files.onWay path := by
        rw [onWay, hsteps]
        exact mem_entered_of_down _ front [] name
      have hmade := kept_putDirectory hplace (by simp) hnode
      refine .done hmade ⟨Or.inr hfault, ?_⟩
      rw [hmade.start, hsteps, isClear_append]
      refine ⟨⟨hclear.short, fun place hplace => hmade.directory (hclear.directories place hplace)⟩, ?_⟩
      exact isClear_down.mpr ⟨hname, node?_put_self (by simp)⟩
  | there hfault hclear =>
      dsimp only
      rw [if_pos ((isDirectory_iff hplain htext).mpr hclear)]
      exact .done (.refl _ _ files) hclear
  | stuck hfault hstuck hnoFile =>
      dsimp only
      rw [if_neg fun h => hstuck ((isDirectory_iff hplain htext).mp h).isPassable]
      exact .stuck (.refl _ _ files) hstuck hnoFile

/-- After all that a path stands in has been made, an attempt to make it does not miss anything. -/
theorem makeDirectory_ne_missing {front : List Component} {c : Component}
    (htrail : IsTrail (front ++ [c])) (hfront : front ≠ [])
    (hplain : files.IsPlain (.ofComponents (front ++ [c])))
    (hclear : files.LeadsClear (.ofComponents front)) :
    files.makeDirectory (.ofComponents (front ++ [c])) ≠ .error .missing := by
  intro hmissing
  obtain ⟨_, before, name, after, hsteps, _, hnode⟩ :=
    gap_of_makeDirectory hplain (Path.text_ofComponents_ne htrail (by simp)) hmissing
  obtain ⟨step, hstep⟩ : ∃ step, c.step? = some step := by
    have hrelative := Path.isAbsolute_ofComponent_of_isTrail htrail hfront
    cases c with
    | root => exact absurd hrelative (by decide)
    | _ => exact ⟨_, rfl⟩
  rw [steps_of_front htrail, hstep, Option.toList_some, List.dropLast_concat] at hsteps
  rw [start_of_front htrail hfront] at hnode
  have hdirectory := hclear.clear.directories _ (hsteps ▸ mem_entered_of_down _ before after name)
  exact absurd (hnode.symm.trans hdirectory) nofun

theorem IsPlain.front {front : List Component} {c : Component} (htrail : IsTrail (front ++ [c]))
    (hfront : front ≠ []) (hplain : files.IsPlain (.ofComponents (front ++ [c]))) :
    files.IsPlain (.ofComponents front) :=
  ⟨start_of_front htrail hfront ▸ hplain.grounded,
    fun place hplace => hplain.noLink place (onWay_of_front htrail hfront hplace)⟩

theorem making_makeDirectories {components : List Component} (htrail : IsTrail components)
    (hplain : files.IsPlain (.ofComponents components)) :
    Making files (.ofComponents components) (files.makeDirectories (.ofComponents components)) := by
  unfold makeDirectories
  induction components using List.reverseRecOn with
  | nil => exact .done (.refl _ _ files) ⟨Or.inl rfl, isClear_nil⟩
  | append_singleton front c ih =>
      have htext := Path.text_ofComponents_ne htrail (by simp)
      rw [pathsAlong_append_singleton htrail]
      by_cases hmissing : files.makeDirectory (.ofComponents (front ++ [c])) = .error .missing
      · obtain ⟨hfault, before, name, after, hsteps, _⟩ := gap_of_makeDirectory hplain htext hmissing
        have hfront : front ≠ [] := by
          rintro rfl
          rw [steps_of_front htrail] at hsteps
          have hnil : ([] ++ c.step?.toList).dropLast = [] := by cases c.step? <;> rfl
          exact absurd (hnil.symm.trans hsteps) (by simp)
        have houter := ih (Path.isTrail_front htrail) (hplain.front htrail hfront)
        rw [makeAlong_of_missing hmissing]
        generalize files.makeAlong (pathsAlong (.ofComponents front)) = result at houter
        cases houter with
        | done hmade hclear =>
            have hmade : Kept _ [] files _ := hmade.widen (onWay_of_front htrail hfront)
            have hplain' := hmade.isPlain hplain
            exact (making_makeLast hplain' htext
              (makeDirectory_ne_missing htrail hfront hplain' hclear)).of_kept hmade
        | stuck hmade hstuck hnoFile =>
            refine .stuck (hmade.widen (onWay_of_front htrail hfront))
              (fun hpassable => hstuck (hpassable.front htrail hfront)) fun hfiles => ?_
            rw [hnoFile fun place hplace => hfiles place (onWay_of_front htrail hfront hplace), hfault]
            rw [Path.ofComponents_append_singleton] at hfault
            rw [Path.pathFault?_of_join hfault (Path.text_ofComponents_ne (Path.isTrail_front htrail) hfront)
              (Path.isAbsolute_ofComponent_of_isTrail htrail hfront)]
      · rw [makeAlong_of_not_missing hmissing]
        exact making_makeLast hplain htext hmissing

/-- All of a path can be made exactly if the path is passable. -/
theorem makeDirectories_eq_ok_iff {components : List Component} (htrail : IsTrail components)
    (hplain : files.IsPlain (.ofComponents components)) :
    (files.makeDirectories (.ofComponents components)).2 = .ok () ↔
      files.IsPassable (.ofComponents components) := by
  have hmaking := making_makeDirectories htrail hplain
  generalize files.makeDirectories (.ofComponents components) = result at hmaking
  cases hmaking with
  | done hmade hclear => exact iff_of_true rfl (hmade.isPassable hclear)
  | stuck hmade hstuck hnoFile => exact iff_of_false nofun hstuck

end Directories

section Same

variable {more : FileSystem}

/-- An attempt to make a directory that fails because of what is there fails in the same way where more is
there. -/
theorem makeDirectory_congr {fault : Fault} (hplain : files.IsPlain path)
    (hstart : more.start path = files.start path)
    (hsame : ∀ place ∈ files.onWay path, ∀ node, files.node? place = some node → more.node? place = some node)
    (hmake : files.makeDirectory path = .error fault) (hmissing : fault ≠ .missing) :
    more.makeDirectory path = .error fault := by
  have hslot : files.slot path ≠ .error .missing → more.slot path = files.slot path := by
    intro hslot
    cases hfault : pathFault? path with
    | some fault => rw [slot_of_fault hfault, slot_of_fault hfault]
    | none =>
        rw [slot_eq files hfault] at hslot ⊢
        have hwalk : more.walk true maxLinks (files.start path) (path.steps.dropLast ++ [.stay]) =
            files.walk true maxLinks (files.start path) (path.steps.dropLast ++ [.stay]) := by
          refine walk_congr (fun place hplace => hplain.noLink place (mem_onWay_of_dropLast hplace))
            (fun place hplace => hsame place (mem_onWay_of_dropLast hplace)) fun hwalk => ?_
          rw [hwalk] at hslot
          exact hslot rfl
        rw [slot_eq more hfault, hstart, hwalk]
  cases hfound : files.slot path with
  | error slotFault =>
      have hother : slotFault ≠ .missing := by
        rintro rfl
        rw [makeDirectory_of_slot hfound nofun] at hmake
        exact hmissing (Except.error.inj hmake).symm
      have hmore := hslot fun h => hother (Except.error.inj (hfound.symm.trans h))
      rw [hfound] at hmore
      by_cases hbusy : slotFault = .busy
      · rw [makeDirectory_of_busy (hbusy ▸ hmore), ← hmake, makeDirectory_of_busy (hbusy ▸ hfound)]
      · rw [makeDirectory_of_slot hmore hbusy, ← hmake, makeDirectory_of_slot hfound hbusy]
  | ok place =>
      obtain ⟨directory, name⟩ := place
      obtain ⟨_, hsteps, _, _, rfl⟩ := slot_inv hplain hfound
      have hmore := hslot fun h => absurd (hfound.symm.trans h) nofun
      unfold makeDirectory at hmake ⊢
      rw [hfound] at hmake
      rw [hmore, hfound]
      dsimp only at hmake ⊢
      split at hmake
      · rename_i node hnode
        have hplace : ending (files.start path) path.steps.dropLast ++ [name] ∈ files.onWay path := by
          unfold onWay
          rw [hsteps, List.dropLast_concat]
          exact mem_entered_of_down _ _ [] name
        rw [hsame _ hplace node hnode]
        exact hmake
      · exact absurd hmake nofun

/-- Where the first attempt fails because of what is there, nothing is made, and the fault is the same where
more is there. -/
theorem makeDirectories_congr {components : List Component} (htrail : IsTrail components)
    (hplain : files.IsPlain (.ofComponents components)) (hplain' : more.IsPlain (.ofComponents components))
    (hstart : more.start (.ofComponents components) = files.start (.ofComponents components))
    (hsame : ∀ place ∈ files.onWay (.ofComponents components), ∀ node, files.node? place = some node →
      more.node? place = some node)
    (hstuck : ¬ files.IsPassable (.ofComponents components))
    (hstuck' : ¬ more.IsPassable (.ofComponents components))
    (hmissing : files.makeDirectory (.ofComponents components) ≠ .error .missing) :
    (more.makeDirectories (.ofComponents components)).2 =
      (files.makeDirectories (.ofComponents components)).2 := by
  rcases List.eq_nil_or_concat components with rfl | ⟨front, c, rfl⟩
  · rfl
  · rw [List.concat_eq_append] at *
    have htext := Path.text_ofComponents_ne htrail (by simp)
    unfold makeDirectories
    rw [pathsAlong_append_singleton htrail]
    cases hmake : files.makeDirectory (.ofComponents (front ++ [c])) with
    | ok after =>
        have hmaking := making_makeLast hplain htext hmissing
        unfold makeLast at hmaking
        rw [hmake] at hmaking
        cases hmaking with
        | done hmade hclear => exact absurd (hmade.isPassable hclear) hstuck
    | error fault =>
        have hfault : fault ≠ .missing := fun h => hmissing (h ▸ hmake)
        have hmake' := makeDirectory_congr hplain hstart hsame hmake hfault
        rw [makeAlong_of_not_missing hmissing,
          makeAlong_of_not_missing fun h => hfault (Except.error.inj (hmake'.symm.trans h)), makeLast, makeLast,
          hmake, hmake']
        dsimp only
        rw [if_neg fun h => hstuck ((isDirectory_iff hplain htext).mp h).isPassable,
          if_neg fun h => hstuck' ((isDirectory_iff hplain' htext).mp h).isPassable]

/-- In a tree, a path that never goes up meets no file behind what is missing. -/
theorem meetsNoFile_of_missing (htree : files.IsTree) (hplain : files.IsPlain path) (htext : path.text ≠ "")
    (hup : .up ∉ path.steps) (hmissing : files.makeDirectory path = .error .missing) :
    files.MeetsNoFile path := by
  obtain ⟨_, before, name, after, hdrop, hclear, hnode⟩ := gap_of_makeDirectory hplain htext hmissing
  obtain ⟨rest, hsteps⟩ : ∃ rest, path.steps = before ++ .down name :: rest := by
    rcases List.eq_nil_or_concat path.steps with hnil | ⟨front, last, hsteps⟩
    · rw [hnil] at hdrop
      exact absurd hdrop (by simp)
    · rw [List.concat_eq_append] at hsteps
      rw [hsteps, List.dropLast_concat] at hdrop
      exact ⟨after ++ [last], by rw [hsteps, hdrop, List.append_assoc, List.cons_append]⟩
  have hrest : Step.up ∉ rest := fun h => hup (hsteps ▸ List.mem_append_right _ (List.mem_cons_of_mem _ h))
  intro place hplace content hfile
  rw [onWay, hsteps, entered_append] at hplace
  rcases List.mem_append.mp hplace with hbefore | hbehind
  · exact absurd (hfile.symm.trans (hclear.directories place hbefore)) (by simp)
  · rcases List.mem_cons.mp hbehind with rfl | hbelow
    · exact absurd (hfile.symm.trans hnode) (by simp)
    · have hother : ending (files.start path) before ++ [name] ≠ place := by
        rintro rfl
        exact absurd (hfile.symm.trans hnode) (by simp)
      have hdirectory := htree.above hfile (prefix_of_mem_entered hrest hbelow) hother
      exact absurd (hdirectory.symm.trans hnode) (by simp)

end Same

end BreakpointProps.FileSystem
