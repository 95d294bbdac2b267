import BreakpointProps.Proofs.FileSystem.Touching

/-!
Writing a text beside its place and moving it there: what is left when it succeeds, and what is left when it
fails, be it that nothing could be written beside the place, that the disk failed, or that the text could not
be moved.
-/

namespace BreakpointProps

open FileSystem (temporary)

section Names

theorem Path.text_ne_of_getLast?_steps {path : Path} {step : FileSystem.Step}
    (hlast : path.steps.getLast? = some step) : path.text ≠ "" := by
  intro htext
  rw [steps, htext] at hlast
  exact Option.some_ne_none step hlast.symm

/-- Does a path end in a name, so that a file may be written there? -/
def Path.EndsInName (path : Path) : Prop :=
  path.endsInSlash = false ∧ ∃ name, path.steps.getLast? = some (.down name)

/-- The text is written beside such a path under its name with an ending. -/
theorem Path.EndsInName.exists_steps {path : Path} (hends : path.EndsInName) :
    ∃ name, path.steps.getLast? = some (.down name) ∧
      (temporary path).steps = path.steps.dropLast ++ [.down (name ++ ".tmp")] := by
  obtain ⟨hslash, name, hname⟩ := hends
  obtain ⟨front, last, hempty, hsteps, htemporary⟩ := exists_steps_temporary path
  cases hlast : step? last with
  | none =>
      have hnil : last = [] := by
        unfold step? at hlast
        split at hlast <;> simp_all
      rcases hempty hnil with htext | hslash'
      · exact absurd htext (text_ne_of_getLast?_steps hname)
      · exact absurd (hslash.symm.trans hslash') Bool.false_ne_true
  | some step =>
      rw [hlast, Option.toList_some] at hsteps
      rw [hsteps, List.getLast?_concat] at hname
      obtain rfl := Option.some.inj hname
      have hofList : String.ofList last = name := by
        unfold step? at hlast
        split at hlast <;> simp_all
      refine ⟨name, by rw [hsteps, List.getLast?_concat], ?_⟩
      rw [htemporary, hsteps, List.dropLast_concat, ← hofList, String.ofList_append, String.ofList_toList]

end Names

namespace FileSystem

variable {files after : FileSystem} {path : Path}

section Approach

variable {start place directory : Place} {steps more : List Step} {links : Nat}

/-- Steps to a directory go on from it, or from the link that they come to before. -/
theorem advance_append_stay {found : Advance}
    (hadvance : files.advance true start (steps ++ [.stay]) = .ok found) :
    (∃ directory, found = .arrived directory ∧
        ∀ more, files.advance true start (steps ++ more) = files.advance true directory more) ∨
      ∃ directory target front, found = .link directory target (front ++ [.stay]) ∧
        ∀ more, files.advance true start (steps ++ more) = .ok (.link directory target (front ++ more)) := by
  induction steps generalizing start with
  | nil => exact Or.inl ⟨start, (Except.ok.inj hadvance).symm, fun _ => rfl⟩
  | cons step rest ih =>
      cases step with
      | stay => exact ih hadvance
      | up => exact ih hadvance
      | down name =>
          simp only [List.cons_append] at hadvance ⊢
          obtain ⟨hshort, ⟨hnode, hrest⟩ | ⟨target, hnode, hlink⟩ | ⟨content, _, hlast, _⟩⟩ :=
            advance_down_eq_ok_iff.mp hadvance
          · simp only [advance_short hshort, hnode]
            exact ih hrest
          · refine Or.inr ⟨start, target, rest, hlink, fun more => ?_⟩
            exact advance_down_eq_ok_iff.mpr ⟨hshort, Or.inr (Or.inl ⟨target, hnode, rfl⟩)⟩
          · exact absurd hlast (by simp)

/-- A way to a directory goes on from it. -/
theorem walk_append_stay (hwalk : files.walk true links start (steps ++ [.stay]) = .ok directory)
    (hmore : files.advance true directory more = .ok (.arrived place)) :
    files.walk true links start (steps ++ more) = .ok place := by
  induction links using Nat.strongRecOn generalizing start steps with
  | ind links ih =>
      rcases walk_eq_ok_iff.mp hwalk with hadvance | ⟨fewer, base, target, rest, rfl, hadvance, hrest⟩
      · rcases advance_append_stay hadvance with ⟨found, hfound, hall⟩ | ⟨_, _, _, hfound, _⟩
        · obtain rfl := Advance.arrived.inj hfound
          exact walk_of_advance ((hall more).trans hmore)
        · cases hfound
      · rcases advance_append_stay hadvance with ⟨_, hfound, _⟩ | ⟨_, _, front, hfound, hall⟩
        · cases hfound
        · obtain ⟨rfl, rfl, rfl⟩ := Advance.link.inj hfound
          rw [← List.append_assoc] at hrest
          have hfewer := ih fewer (Nat.lt_succ_self fewer) hrest
          rw [List.append_assoc] at hfewer
          exact walk_eq_ok_iff.mpr (Or.inr ⟨_, _, _, _, rfl, hall more, hfewer⟩)

/-- Steps that come to a link stop there. -/
theorem isLinkAt_stop {target : Path} {rest : List Step}
    (hadvance : files.advance true start steps = .ok (.link directory target rest)) :
    files.IsLinkAt (files.stop start steps) := by
  induction steps generalizing start with
  | nil => cases Except.ok.inj hadvance
  | cons step later ih =>
      cases step with
      | stay => exact ih hadvance
      | up => exact ih hadvance
      | down name =>
          rw [stop]
          obtain ⟨_, ⟨hnode, hrest⟩ | ⟨target', hnode, _⟩ | ⟨_, _, _, harrived⟩⟩ :=
            advance_down_eq_ok_iff.mp hadvance
          · rw [if_pos hnode]
            exact ih hrest
          · rw [if_neg (by simp [hnode])]
            exact ⟨target', hnode⟩
          · cases harrived

/-- What is crossed on a way is a link or the end of it. -/
theorem eq_or_isLinkAt_of_mem_crossed (hwalk : files.walk true links start steps = .ok directory)
    (hplace : place ∈ files.crossed links start steps) : place = directory ∨ files.IsLinkAt place := by
  induction links using Nat.strongRecOn generalizing start steps with
  | ind links ih =>
      rcases walk_eq_ok_iff.mp hwalk with hadvance | ⟨fewer, base, target, rest, rfl, hadvance, hrest⟩
      · have hcrossed : files.crossed links start steps = [files.stop start steps] := by
          cases links <;> rw [crossed]
          rw [hadvance]
        rw [hcrossed, List.mem_singleton] at hplace
        exact Or.inl (hplace.trans (stop_of_advance hadvance))
      · rw [crossed, hadvance, List.mem_cons] at hplace
        rcases hplace with rfl | hlater
        · exact Or.inr (isLinkAt_stop hadvance)
        · exact ih fewer (Nat.lt_succ_self fewer) hrest hlater

/-- The links on the way to the directory that a path names an entry of, and that directory. -/
def approach (files : FileSystem) (path : Path) : List Place :=
  files.crossed maxLinks (files.start path) (path.steps.dropLast ++ [.stay])

end Approach

section Slots

variable {directory : Place} {name : String}

/-- What is written beside a path that ends in a name stands in the same directory. -/
theorem slot_of_slot_temporary (hends : path.EndsInName)
    (hslot : files.slot (temporary path) = .ok (directory, name)) :
    ∃ last, name = last ++ ".tmp" ∧ files.slot path = .ok (directory, last) := by
  obtain ⟨last, hlast, hsteps⟩ := hends.exists_steps
  obtain ⟨hfault, hwalk, hname, hshort⟩ := slot_eq_ok_iff.mp hslot
  rw [hsteps, List.getLast?_concat] at hname
  obtain rfl := Step.down.inj (Option.some.inj hname)
  have hstart : files.start (temporary path) = files.start path := by
    rw [start, start, origin, origin, Path.isAbsolute_temporary]
  rw [hstart, hsteps, List.dropLast_concat] at hwalk
  rw [String.utf8ByteSize_append] at hshort
  exact ⟨last, rfl, slot_eq_ok_iff.mpr
    ⟨Path.pathFault?_of_prefix hfault (Path.text_ne_of_getLast?_steps hlast), hwalk, hlast, by omega⟩⟩

end Slots

section Move

variable {source target : Path}

/-- Only to a path that ends in a name can anything be moved. -/
theorem endsInName_of_move (hmove : files.move source target = .ok after) : target.EndsInName := by
  unfold move at hmove
  cases hsource : files.slot source with
  | error fault =>
      rw [hsource] at hmove
      cases hmove
  | ok first =>
      cases htarget : files.slot target with
      | error fault =>
          rw [hsource, htarget] at hmove
          cases hmove
      | ok second =>
          obtain ⟨_, _, hlast, _⟩ := slot_eq_ok_iff.mp htarget
          refine ⟨?_, _, hlast⟩
          rw [hsource, htarget] at hmove
          dsimp only [bind, Except.bind] at hmove
          rw [← Bool.not_eq_true]
          intro hslash
          split at hmove
          · cases hmove
          · cases hmove
          · rw [if_pos hslash] at hmove
            cases hmove

end Move

section AllOrNothing

variable {text : String} {place beside reached : Place}

/-- Is a text kept from its place once it is written beside it: by the disk, by a path that ends in no name,
or by a directory in that place? -/
def IsHindered (medium : Medium) (files : FileSystem) (path : Path) (text : String) : Prop :=
  medium.fault? text.toUTF8 ≠ none ∨ ¬ path.EndsInName ∨
    ∃ place, files.entry path = .ok place ∧ files.node? place = some .directory

/-- What takes the place of a text once it is written beside it: the text itself, or a link that stood there
and led it elsewhere. -/
structure Takes (files : FileSystem) (path : Path) (text : String) (place beside reached : Place) (node : Node) :
    Prop where
  entry : files.entry path = .ok place
  entryBeside : files.entry (temporary path) = .ok beside
  distinct : place ≠ beside
  belowRoot : place ≠ [] ∧ beside ≠ []
  free : files.IsOpen reached
  source : files.IsOpen beside ∧ reached = beside ∧ node = .file text.toUTF8 ∨
    ∃ target, files.node? beside = some (.link target) ∧ node = .link target

/-- What is there once it took the place. -/
def takenOver (files : FileSystem) (text : String) (place beside reached : Place) (node : Node) : FileSystem :=
  ((files.put reached (.file text.toUTF8)).erase beside).put place node

/-- It takes the place unless a directory is there. -/
theorem exists_takes (hends : path.EndsInName) (hreached : files.destination (temporary path) = .ok reached) :
    ∃ place beside node, Takes files path text place beside reached node ∧
      (files.put reached (.file text.toUTF8)).move (temporary path) path =
        if files.node? place = some .directory then .error .isDirectory
        else .ok (files.takenOver text place beside reached node) := by
  obtain ⟨hopen, _, directory, name, hbeside, hdest⟩ := slot_of_destination hreached
  obtain ⟨last, rfl, hplace⟩ := slot_of_slot_temporary hends hbeside
  -- The two slots are still there when the text is put beside its place.
  have hkept : ∀ found node, files.node? found = some node → (∀ content, node ≠ .file content) →
      (files.put reached (.file text.toUTF8)).node? found = some node :=
    fun _ _ hfound hnofile => (node?_put_file_iff hopen hnofile).mpr hfound
  have hne : directory ++ [last] ≠ directory ++ [last ++ ".tmp"] := by
    intro hsame
    have hlast := congrArg String.length (List.singleton_inj.mp (List.append_cancel_left hsame))
    rw [String.length_append] at hlast
    exact absurd hlast (by simp)
  obtain ⟨node, hcases, hnode, hplain⟩ : ∃ node,
      (files.IsOpen (directory ++ [last ++ ".tmp"]) ∧ reached = directory ++ [last ++ ".tmp"] ∧
          node = .file text.toUTF8 ∨
        ∃ target, files.node? (directory ++ [last ++ ".tmp"]) = some (.link target) ∧ node = .link target) ∧
      (files.put reached (.file text.toUTF8)).node? (directory ++ [last ++ ".tmp"]) = some node ∧
      node ≠ .directory := by
    rcases hdest with rfl | ⟨target, htarget⟩
    · exact ⟨_, Or.inl ⟨hopen, rfl, rfl⟩, node?_put_self hopen.ne_nil, by simp⟩
    · exact ⟨_, Or.inr ⟨target, htarget, rfl⟩, hkept _ _ htarget (by simp), by simp⟩
  refine ⟨_, _, node, ⟨entry_eq_ok_iff.mpr ⟨_, _, hplace, rfl⟩, entry_eq_ok_iff.mpr ⟨_, _, hbeside, rfl⟩, hne,
    by simp, hopen, hcases⟩, ?_⟩
  rw [move_eq (slot_of_slot hkept rfl hbeside) (slot_of_slot hkept rfl hplace) hends.1 hnode hplain]
  exact if_congr (node?_put_file_iff hopen (by simp)) rfl rfl

/-- A text that was put at the entry that a path names is what the path reads, unless the way to the entry
led through it. -/
theorem readText_of_entry (hends : path.EndsInName) (hplace : files.entry path = .ok place)
    (hkept : Stays (files.approach path) files after)
    (hnode : after.node? place = some (.file text.toUTF8)) : after.readText path = .ok text := by
  obtain ⟨directory, name, hslot, rfl⟩ := entry_eq_ok_iff.mp hplace
  obtain ⟨hfault, hwalk, hlast, hshort⟩ := slot_eq_ok_iff.mp hslot
  have hstart : after.start path = files.start path := by
    rw [start, start, hkept.workingDirectory]
  have hadvance : after.advance true directory [.down name] = .ok (.arrived (directory ++ [name])) :=
    advance_down_eq_ok_iff.mpr ⟨hshort, Or.inr (Or.inr ⟨_, hnode, rfl, rfl⟩)⟩
  have hsteps : path.steps = path.steps.dropLast ++ [.down name] := by
    rw [List.dropLast_append_getLast? _ hlast]
  have hroute : path.route = path.steps.dropLast ++ [.down name] := by
    rw [Path.route, hends.1, ← hsteps]
    exact List.append_nil _
  have hplace' : after.place path = .ok (directory ++ [name]) := by
    rw [place_eq_ok_iff, hstart, hroute]
    exact ⟨hfault, walk_append_stay (hkept.walk (fun _ hmem => hmem) hwalk).1 hadvance⟩
  have htext : String.fromUTF8? text.toUTF8 = some text := by
    simp [String.fromUTF8?, String.fromUTF8, text.isValidUTF8]
  rw [readText, nodeAt, hplace']
  simp only [bind, Except.bind, hnode, htext]

/-- Nothing could be written beside the place, or it was and the text is hindered, or it takes its place. -/
theorem writeAtomicOn_cases (medium : Medium) (files : FileSystem) (path : Path) (text : String) :
    (∃ fault, files.destination (temporary path) = .error fault ∧
        files.writeAtomicOn medium path text = (files, .error fault)) ∨
      ∃ reached, files.destination (temporary path) = .ok reached ∧
        (IsHindered medium files path text ∧
            (∃ fault, files.writeAtomicOn medium path text =
              (files.put reached (.file (medium.stored text.toUTF8)), .error fault)) ∨
          ¬ IsHindered medium files path text ∧
            ∃ place beside node, Takes files path text place beside reached node ∧
              files.writeAtomicOn medium path text =
                (files.takenOver text place beside reached node, .ok ())) := by
  unfold writeAtomicOn
  rw [write]
  cases hreached : files.destination (temporary path) with
  | error fault => exact Or.inl ⟨fault, rfl, rfl⟩
  | ok reached =>
      refine Or.inr ⟨reached, rfl, ?_⟩
      dsimp only [Except.map]
      cases hfault : medium.fault? text.toUTF8 with
      | some fault => exact Or.inl ⟨Or.inl (hfault ▸ Option.some_ne_none fault), fault, rfl⟩
      | none =>
          rw [medium.stored_eq _ hfault]
          dsimp only
          by_cases hends : path.EndsInName
          · obtain ⟨place, beside, node, htakes, hmove⟩ := exists_takes hends hreached
            rw [hmove]
            by_cases hdirectory : files.node? place = some .directory
            · rw [if_pos hdirectory]
              exact Or.inl ⟨Or.inr (Or.inr ⟨place, htakes.entry, hdirectory⟩), _, rfl⟩
            · rw [if_neg hdirectory]
              refine Or.inr ⟨?_, place, beside, node, htakes, rfl⟩
              rintro (hmedium | hnone | ⟨other, hother, hother'⟩)
              · exact hmedium hfault
              · exact hnone hends
              · exact hdirectory (Except.ok.inj (htakes.entry.symm.trans hother) ▸ hother')
          · cases hmove : (files.put reached (.file text.toUTF8)).move (temporary path) path with
            | ok moved => exact absurd (endsInName_of_move hmove) hends
            | error fault => exact Or.inl ⟨Or.inr (Or.inl hends), fault, rfl⟩

section Takes

variable {node : Node}

theorem Takes.node?_place (htakes : Takes files path text place beside reached node) :
    (files.takenOver text place beside reached node).node? place = some node :=
  node?_put_self htakes.belowRoot.1

theorem Takes.node?_beside (htakes : Takes files path text place beside reached node) :
    (files.takenOver text place beside reached node).node? beside = none := by
  rw [takenOver, node?_put_of_ne htakes.distinct.symm, node?_erase_self htakes.belowRoot.2]

theorem node?_takenOver_reached (hplace : reached ≠ place) (hbeside : reached ≠ beside) (hroot : reached ≠ []) :
    (files.takenOver text place beside reached node).node? reached = some (.file text.toUTF8) := by
  rw [takenOver, node?_put_of_ne hplace, node?_erase_of_ne hbeside, node?_put_self hroot]

theorem node?_takenOver_of_ne {other : Place} (hplace : other ≠ place) (hbeside : other ≠ beside)
    (hreached : other ≠ reached) :
    (files.takenOver text place beside reached node).node? other = files.node? other := by
  rw [takenOver, node?_put_of_ne hplace, node?_erase_of_ne hbeside, node?_put_of_ne hreached]

/-- The text itself takes the place if no link stands beside it. -/
theorem Takes.of_not_isLinkAt (htakes : Takes files path text place beside reached node)
    (hlink : ¬ files.IsLinkAt beside) : reached = beside ∧ node = .file text.toUTF8 := by
  rcases htakes.source with ⟨_, hreached, hnode⟩ | ⟨target, htarget, _⟩
  · exact ⟨hreached, hnode⟩
  · exact absurd ⟨target, htarget⟩ hlink

/-- Then it is what its path reads, unless the way to the place led through it. -/
theorem Takes.readText (htakes : Takes files path text place beside reached node) (hends : path.EndsInName)
    (hdirectory : files.node? place ≠ some .directory) (hlink : ¬ files.IsLinkAt beside)
    (happroach : place ∉ files.approach path) :
    (files.takenOver text place beside reached node).readText path = .ok text := by
  obtain ⟨rfl, rfl⟩ := htakes.of_not_isLinkAt hlink
  obtain ⟨directory, name, hbeside, rfl⟩ := entry_eq_ok_iff.mp htakes.entryBeside
  obtain ⟨last, rfl, hslot⟩ := slot_of_slot_temporary hends hbeside
  obtain ⟨-, hwalk, -⟩ := slot_eq_ok_iff.mp hslot
  -- What stands beside the place is in the directory that the way leads to, and it is no link.
  have hcrossed : ∀ other ∈ files.approach path, other ≠ directory ++ [last ++ ".tmp"] := by
    rintro other hother rfl
    rcases eq_or_isLinkAt_of_mem_crossed hwalk hother with hsame | hlink'
    · exact absurd (congrArg List.length hsame) (by simp)
    · exact hlink hlink'
  refine readText_of_entry hends htakes.entry
    ⟨rfl, fun other hother => ?_, fun other hother found hfound => ?_⟩ htakes.node?_place
  · have hplace : other ≠ place := fun hsame => hdirectory (hsame ▸ hother)
    have hreached : other ≠ directory ++ [last ++ ".tmp"] := by
      rintro rfl
      exact absurd (htakes.free _ hother) nofun
    rwa [node?_takenOver_of_ne hplace hreached hreached]
  · have hplace : other ≠ place := fun hsame => happroach (hsame ▸ hother)
    have hreached := hcrossed other hother
    rwa [node?_takenOver_of_ne hplace hreached hreached]

end Takes

/-- Writing a text on a disk that may fail is all or nothing, apart from what is written beside its place.
If it fails, either nothing could be written there and nothing has changed, or the text was hindered and what
the disk holds of it is left there. If it succeeds, nothing is left beside the place, and the text is what the
path reads, unless a link stood beside it or the way to the place led through it: such a link takes the place,
and the text is where it leads. All else is as it was. -/
theorem writeAtomicOn_allOrNothing (medium : Medium) (files after : FileSystem) (path : Path) (text : String) :
    (∀ fault, files.writeAtomicOn medium path text = (after, .error fault) →
      files.destination (temporary path) = .error fault ∧ after = files ∨
        ∃ reached, files.destination (temporary path) = .ok reached ∧
          IsHindered medium files path text ∧
          after = files.put reached (.file (medium.stored text.toUTF8))) ∧
      (files.writeAtomicOn medium path text = (after, .ok ()) →
        ¬ IsHindered medium files path text ∧
        ∃ place beside reached, files.entry path = .ok place ∧ files.entry (temporary path) = .ok beside ∧
          files.destination (temporary path) = .ok reached ∧
          after.workingDirectory = files.workingDirectory ∧ after.node? beside = none ∧
          (∀ other, other ≠ place → other ≠ beside → other ≠ reached →
            after.node? other = files.node? other) ∧
          (¬ files.IsLinkAt beside → reached = beside ∧ after.node? place = some (.file text.toUTF8) ∧
            (place ∉ files.approach path → after.readText path = .ok text)) ∧
          ∀ target, files.node? beside = some (.link target) →
            after.node? place = some (.link target) ∧
              (reached ≠ place → after.node? reached = some (.file text.toUTF8))) := by
  rcases writeAtomicOn_cases medium files path text with
    ⟨fault, hreached, hrun⟩ | ⟨reached, hreached, ⟨hhindered, fault, hrun⟩ |
      ⟨hhindered, place, beside, node, htakes, hrun⟩⟩
  · rw [hrun]
    refine ⟨fun other hresult => ?_, nofun⟩
    obtain ⟨rfl, hfault⟩ := Prod.mk.inj hresult
    exact Or.inl ⟨hreached.trans (congrArg _ (Except.error.inj hfault)), rfl⟩
  · rw [hrun]
    refine ⟨fun other hresult => ?_, nofun⟩
    exact Or.inr ⟨reached, hreached, hhindered, (Prod.mk.inj hresult).1.symm⟩
  · rw [hrun]
    refine ⟨nofun, fun hresult => ⟨hhindered, place, beside, reached, htakes.entry, htakes.entryBeside,
      hreached, ?_⟩⟩
    obtain ⟨rfl, -⟩ := Prod.mk.inj hresult
    have hends : path.EndsInName := by
      by_contra hnone
      exact hhindered (Or.inr (Or.inl hnone))
    have hdirectory : files.node? place ≠ some .directory :=
      fun hnode => hhindered (Or.inr (Or.inr ⟨place, htakes.entry, hnode⟩))
    refine ⟨rfl, htakes.node?_beside, fun other => node?_takenOver_of_ne, fun hlink => ?_, fun target hlink => ?_⟩
    · obtain ⟨hsame, hnode⟩ := htakes.of_not_isLinkAt hlink
      exact ⟨hsame, hnode ▸ htakes.node?_place, htakes.readText hends hdirectory hlink⟩
    · have hbeside : reached ≠ beside := by
        rintro rfl
        exact absurd (htakes.free _ hlink) nofun
      refine ⟨?_, fun hplace => node?_takenOver_reached hplace hbeside htakes.free.ne_nil⟩
      rcases htakes.source with ⟨_, hsame, _⟩ | ⟨other, hother, hnode⟩
      · exact absurd hsame hbeside
      · obtain rfl := Node.link.inj (Option.some.inj (hlink.symm.trans hother))
        exact hnode ▸ htakes.node?_place

/-- A link to a directory with a file, and with a file beside it. -/
def occupiedFiles : FileSystem where
  entries := [(["d"], .directory), (["l"], .link ⟨"d"⟩), (["d", "f"], .file "old".toUTF8),
    (["d", "f.tmp"], .file "other".toUTF8)]

theorem writeAtomicOn_allOrNothing_occupied :
    ∃ after, occupiedFiles.writeAtomicOn .sound ⟨"l/f"⟩ "new" = (after, .ok ()) ∧
      after.readText ⟨"l/f"⟩ = .ok "new" ∧ after.node? ["d", "f"] = some (.file "new".toUTF8) ∧
      after.node? ["d", "f.tmp"] = none := by
  obtain ⟨after, hrun⟩ : ∃ after, occupiedFiles.writeAtomicOn .sound ⟨"l/f"⟩ "new" = (after, .ok ()) := by
    have hok : (occupiedFiles.writeAtomicOn .sound ⟨"l/f"⟩ "new").2 = .ok () := by decide +kernel
    generalize occupiedFiles.writeAtomicOn .sound ⟨"l/f"⟩ "new" = result at hok ⊢
    exact ⟨result.1, Prod.ext rfl hok⟩
  obtain ⟨-, place, beside, reached, hplace, hbeside, -, -, hgone, -, hplain, -⟩ :=
    (writeAtomicOn_allOrNothing .sound occupiedFiles after ⟨"l/f"⟩ "new").2 hrun
  have hentry : occupiedFiles.entry ⟨"l/f"⟩ = .ok ["d", "f"] := by decide +kernel
  have hentry' : occupiedFiles.entry (temporary ⟨"l/f"⟩) = .ok ["d", "f.tmp"] := by decide +kernel
  obtain rfl := Except.ok.inj (hplace.symm.trans hentry)
  obtain rfl := Except.ok.inj (hbeside.symm.trans hentry')
  obtain ⟨-, hnode, hread⟩ := hplain (by decide +kernel)
  exact ⟨after, hrun, hread (by decide +kernel), hnode, hgone⟩

/-- A text that cannot replace a directory stays beside it. -/
example :
    let files : FileSystem := { entries := [(["d"], .directory)] }
    (files.writeAtomic ⟨"d"⟩ "x").1.node? ["d.tmp"] = some (.file "x".toUTF8) := by
  decide +kernel

end AllOrNothing

end FileSystem

end BreakpointProps
