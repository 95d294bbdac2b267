import BreakpointProps.FileSystem.Change
import BreakpointProps.Proofs.FileSystem.Crossing

/-!
What writing changes. Making directories only adds to what is there. Writing a text beside its place and
moving it there changes where the first path leads to and the entries that the two paths name.
-/

namespace BreakpointProps.FileSystem

variable {files after more : FileSystem} {places : List Place} {path : Path}

section Directories

theorem Stays.of_makeDirectory (hmake : files.makeDirectory path = .ok after) : Stays places files after := by
  unfold makeDirectory at hmake
  split at hmake
  · cases hmake
  · cases hmake
  · split at hmake
    · cases hmake
    · rename_i directory name _ hnone
      obtain rfl := Except.ok.inj hmake
      exact stays_put (fun _ => hnone) (by simp [hnone])

theorem stays_makeAlong (places : List Place) (files : FileSystem) (paths : List Path) :
    Stays places files (files.makeAlong paths).1 := by
  induction paths generalizing files with
  | nil => exact .refl _ _
  | cons path outer ih =>
      rw [makeAlong]
      cases hmake : files.makeDirectory path with
      | ok made => exact .of_makeDirectory hmake
      | error fault =>
          have houter := ih files
          cases fault
          case missing =>
            dsimp only
            generalize files.makeAlong outer = result at houter
            obtain ⟨made, outcome⟩ := result
            cases outcome with
            | error fault => exact houter
            | ok =>
                dsimp only
                cases hlast : made.makeDirectory path with
                | ok last => exact houter.trans (.of_makeDirectory hlast)
                | error fault => exact houter
          all_goals exact .refl _ _

theorem stays_makeDirectories (places : List Place) (files : FileSystem) (path : Path) :
    Stays places files (files.makeDirectories path).1 := stays_makeAlong places files _

end Directories

section Destination

/-- The place of the entry that a path names. -/
def entry (files : FileSystem) (path : Path) : Except Fault Place := do
  let (directory, name) ← files.slot path
  return directory ++ [name]

theorem entry_eq_ok_iff {place : Place} :
    files.entry path = .ok place ↔
      ∃ directory name, files.slot path = .ok (directory, name) ∧ directory ++ [name] = place := by
  rw [entry]
  cases files.slot path with
  | error fault => simp [bind, Except.bind]
  | ok slot => simp [bind, Except.bind, pure, Except.pure, Prod.ext_iff]

/-- The places that writing a text to a path can change. -/
def touched (files : FileSystem) (path : Path) : List Place :=
  [files.destination (temporary path), files.entry (temporary path), files.entry path].filterMap Except.toOption

/-- A file is written where steps lead to a directory in which its name is free, or is that of a link. -/
theorem walk_of_destinationAlong {links : Nat} {start place : Place} {steps : List Step}
    {goal? : Option String} (hplace : files.destinationAlong links start steps goal? = .ok place) :
    files.IsOpen place ∧
      ∃ directory name, files.walk true links start steps = .ok directory ∧ goal? = some name ∧
        name.utf8ByteSize ≤ maxName ∧
        (place = directory ++ [name] ∨ files.IsLinkAt (directory ++ [name])) := by
  -- Each link that is followed, on the way or at its end, takes one from those that may be.
  induction links using Nat.strongRecOn generalizing start steps goal? with
  | ind links ih =>
      rw [destinationAlong.eq_def] at hplace
      dsimp only at hplace
      cases hadvance : files.advance true start steps with
      | error fault =>
          rw [hadvance] at hplace
          cases hplace
      | ok found =>
          rw [hadvance] at hplace
          dsimp only [bind, Except.bind] at hplace
          cases found with
          | link directory target rest =>
              cases links with
              | zero => cases hplace
              | succ links =>
                  obtain ⟨hopen, last, name, hwalk, hname⟩ := ih links (Nat.lt_succ_self links) hplace
                  exact ⟨hopen, last, name,
                    walk_eq_ok_iff.mpr (Or.inr ⟨links, directory, target, rest, rfl, hadvance, hwalk⟩), hname⟩
          | arrived directory =>
              cases goal? with
              | none => cases hplace
              | some name =>
                  dsimp only at hplace
                  split at hplace
                  · cases hplace
                  · rename_i hlong
                    have hshort := Nat.not_lt.mp hlong
                    have hwalk : files.walk true links start steps = .ok directory := walk_of_advance hadvance
                    split at hplace
                    · cases hplace
                    · rename_i target hlink
                      cases links with
                      | zero => cases hplace
                      | succ links =>
                          exact ⟨(ih links (Nat.lt_succ_self links) hplace).1, directory, name, hwalk, rfl,
                            hshort, Or.inr ⟨target, hlink⟩⟩
                    · rename_i hdirectory hlink
                      obtain rfl := Except.ok.inj hplace
                      refine ⟨fun node hnode => ?_, directory, name, hwalk, rfl, hshort, Or.inl rfl⟩
                      cases node with
                      | file content => exact ⟨content, rfl⟩
                      | directory => exact absurd hnode hdirectory
                      | link target => exact absurd hnode (hlink target)

/-- A file is written through a path that may lead to one: in its slot, or where a link there leads to. -/
theorem slot_of_destination {place : Place} (hplace : files.destination path = .ok place) :
    files.IsOpen place ∧ path.endsInSlash = false ∧
      ∃ directory name, files.slot path = .ok (directory, name) ∧
        (place = directory ++ [name] ∨ files.IsLinkAt (directory ++ [name])) := by
  unfold destination at hplace
  cases hfault : pathFault? path with
  | some fault =>
      rw [hfault] at hplace
      cases hplace
  | none =>
      rw [hfault] at hplace
      obtain ⟨hopen, directory, name, hwalk, hgoal, hshort, hwhere⟩ := walk_of_destinationAlong hplace
      unfold Path.goal? at hgoal
      split at hgoal
      · cases hgoal
      · rename_i hslash
        split at hgoal
        · rename_i last hlast
          obtain rfl := Option.some.inj hgoal
          exact ⟨hopen, Bool.eq_false_iff.mpr hslash, directory, last,
            slot_eq_ok_iff.mpr ⟨hfault, hwalk, hlast, hshort⟩, hwhere⟩
        · cases hgoal

/-- A file is put where there is none, or instead of one. -/
theorem write_cases (files : FileSystem) (path : Path) (content : ByteArray) :
    (∃ fault, files.write path content = .error fault) ∨
      ∃ place, files.destination path = .ok place ∧ files.IsOpen place ∧
        files.write path content = .ok (files.put place (.file content)) := by
  rw [write]
  cases hplace : files.destination path with
  | error fault => exact Or.inl ⟨fault, rfl⟩
  | ok place => exact Or.inr ⟨place, rfl, (slot_of_destination hplace).1, rfl⟩

/-- Moving changes the two entries only, and neither of them is a directory. -/
theorem move_cases (files : FileSystem) (source target : Path) :
    (∃ fault, files.move source target = .error fault) ∨
      ∃ left taken node, files.entry source = .ok left ∧ files.entry target = .ok taken ∧
        files.node? left ≠ some .directory ∧ files.node? taken ≠ some .directory ∧
        files.move source target = .ok ((files.erase left).put taken node) := by
  unfold move entry
  cases files.slot source with
  | error fault => exact Or.inl ⟨fault, rfl⟩
  | ok first =>
      obtain ⟨sourceDirectory, sourceName⟩ := first
      cases files.slot target with
      | error fault => exact Or.inl ⟨fault, rfl⟩
      | ok second =>
          obtain ⟨targetDirectory, targetName⟩ := second
          dsimp only [bind, Except.bind, pure, Except.pure]
          split
          · exact Or.inl ⟨_, rfl⟩
          · exact Or.inl ⟨_, rfl⟩
          · rename_i node hother hnode
            split
            · exact Or.inl ⟨_, rfl⟩
            · split
              · exact Or.inl ⟨_, rfl⟩
              · rename_i hfree
                refine Or.inr ⟨_, _, node, rfl, rfl, fun hdirectory => ?_, hfree, rfl⟩
                exact hother (Option.some.inj (hnode.symm.trans hdirectory))

end Destination

section Slot

variable {start place : Place} {steps : List Step} {links : Nat}

variable (hkept : ∀ place node, files.node? place = some node → (∀ content, node ≠ .file content) →
  more.node? place = some node)

include hkept

/-- Steps to a directory depend on no file. -/
theorem advance_stay {found : Advance} (hadvance : files.advance true start (steps ++ [.stay]) = .ok found) :
    more.advance true start (steps ++ [.stay]) = .ok found ∧
      ∀ directory target rest, found = .link directory target rest → ∃ front, rest = front ++ [.stay] := by
  induction steps generalizing start with
  | nil =>
      refine ⟨hadvance, fun directory target rest hlink => ?_⟩
      rw [hlink] at hadvance
      cases Except.ok.inj hadvance
  | cons step rest ih =>
      rw [List.cons_append] at hadvance ⊢
      cases step with
      | stay => exact ih hadvance
      | up => exact ih hadvance
      | down name =>
          rw [advance_down_eq_ok_iff] at hadvance ⊢
          obtain ⟨hshort, ⟨hnode, hrest⟩ | ⟨target, hnode, hlink⟩ | ⟨content, _, hlast, _⟩⟩ := hadvance
          · obtain ⟨hmore, hbehind⟩ := ih hrest
            exact ⟨⟨hshort, Or.inl ⟨hkept _ _ hnode (by simp), hmore⟩⟩, hbehind⟩
          · refine ⟨⟨hshort, Or.inr (Or.inl ⟨target, hkept _ _ hnode (by simp), hlink⟩)⟩, ?_⟩
            intro directory target' rest' hlink'
            exact ⟨rest, (Advance.link.inj (hlink'.symm.trans hlink)).2.2⟩
          · exact absurd hlast (by simp)

/-- So does the way to a directory. -/
theorem walk_stay (hwalk : files.walk true links start (steps ++ [.stay]) = .ok place) :
    more.walk true links start (steps ++ [.stay]) = .ok place := by
  induction links using Nat.strongRecOn generalizing start steps with
  | ind links ih =>
      rcases walk_eq_ok_iff.mp hwalk with hadvance | ⟨fewer, directory, target, rest, rfl, hadvance, hrest⟩
      · exact walk_of_advance (advance_stay hkept hadvance).1
      · obtain ⟨hmore, hbehind⟩ := advance_stay hkept hadvance
        obtain ⟨front, rfl⟩ := hbehind directory target rest rfl
        rw [← List.append_assoc] at hrest
        have hrest' := ih fewer (Nat.lt_succ_self fewer) hrest
        rw [List.append_assoc] at hrest'
        exact walk_eq_ok_iff.mpr (Or.inr ⟨_, _, _, _, rfl, hmore, hrest'⟩)

/-- The slot that a path names depends on no file. -/
theorem slot_of_slot {name : String} (hstart : more.workingDirectory = files.workingDirectory)
    (hslot : files.slot path = .ok (place, name)) : more.slot path = .ok (place, name) := by
  obtain ⟨hfault, hwalk, hlast⟩ := slot_eq_ok_iff.mp hslot
  have horigin : more.start path = files.start path := by
    rw [FileSystem.start, FileSystem.start, hstart]
  exact slot_eq_ok_iff.mpr ⟨hfault, horigin ▸ walk_stay hkept hwalk, hlast⟩

/-- Nor does the entry there. -/
theorem entry_of_entry (hstart : more.workingDirectory = files.workingDirectory)
    (hentry : files.entry path = .ok place) : more.entry path = .ok place := by
  obtain ⟨directory, name, hslot, rfl⟩ := entry_eq_ok_iff.mp hentry
  exact entry_eq_ok_iff.mpr ⟨directory, name, slot_of_slot hkept hstart hslot, rfl⟩

end Slot

section Atomic

variable {text : String}

theorem IsOpen.ne_nil {place : Place} (hopen : files.IsOpen place) : place ≠ [] := by
  rintro rfl
  obtain ⟨content, hfile⟩ := hopen .directory rfl
  cases hfile

/-- Where a file can be put, putting it there changes files only. -/
theorem node?_put_file_iff {place other : Place} {content : ByteArray} {node : Node} (hopen : files.IsOpen place)
    (hnode : ∀ content, node ≠ .file content) :
    (files.put place (.file content)).node? other = some node ↔ files.node? other = some node := by
  by_cases hsame : other = place
  · rw [hsame, node?_put_self hopen.ne_nil]
    constructor
    · intro hfile
      exact absurd (Option.some.inj hfile).symm (hnode content)
    · intro hfound
      obtain ⟨held, rfl⟩ := hopen node hfound
      exact absurd rfl (hnode held)
  · rw [node?_put_of_ne hsame]

/-- What is there after something was taken away was there before. -/
theorem node?_of_erase {place other : Place} {node : Node} (hnode : (files.erase place).node? other = some node) :
    files.node? other = some node := by
  by_cases hroot : other = []
  · rw [hroot] at hnode ⊢
    exact hnode
  · by_cases hsame : other = place
    · rw [hsame, node?_erase_self (hsame ▸ hroot)] at hnode
      cases hnode
    · rwa [node?_erase_of_ne hsame] at hnode

/-- Writing a text to a path changes what it touches, and no directory. -/
theorem stays_writeAtomic (hother : ∀ place ∈ places, place ∉ files.touched path) :
    Stays places files (files.writeAtomic path text).1 := by
  rw [writeAtomic_eq]
  rcases files.write_cases (temporary path) text.toUTF8 with
    ⟨fault, hwrite⟩ | ⟨place, hplace, hopen, hwrite⟩
  · rw [hwrite]
    exact .refl _ _
  · rw [hwrite]
    dsimp only
    have hput : place ∉ places := by
      intro hmem
      exact hother place hmem (by simp [touched, hplace, Except.toOption])
    have hwritten : Stays places files (files.put place (.file text.toUTF8)) := by
      refine stays_put (absurd · hput) fun hdirectory => ?_
      obtain ⟨content, hfile⟩ := hopen _ hdirectory
      cases hfile
    -- What the two paths name is the same before and after the text is put beside its place.
    have hkept : ∀ found node, (files.put place (.file text.toUTF8)).node? found = some node →
        (∀ content, node ≠ .file content) → files.node? found = some node :=
      fun _ _ hfound hnofile => (node?_put_file_iff hopen hnofile).mp hfound
    rcases (files.put place (.file text.toUTF8)).move_cases (temporary path) path with
      ⟨fault, hmove⟩ | ⟨left, taken, node, hleft, htaken, hleft', htaken', hmove⟩
    · rw [hmove]
      exact hwritten
    · rw [hmove]
      dsimp only
      have hentry := entry_of_entry hkept rfl hleft
      have hentry' := entry_of_entry hkept rfl htaken
      have hleft'' : left ∉ places := by
        intro hmem
        exact hother left hmem (by simp [touched, hentry, Except.toOption])
      have htaken'' : taken ∉ places := by
        intro hmem
        exact hother taken hmem (by simp [touched, hentry', Except.toOption])
      exact (hwritten.trans (stays_erase (absurd · hleft'') hleft')).trans
        (stays_put (absurd · htaken'') fun hdirectory => htaken' (node?_of_erase hdirectory))

end Atomic

end BreakpointProps.FileSystem
