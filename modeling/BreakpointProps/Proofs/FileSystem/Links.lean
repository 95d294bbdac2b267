import Mathlib.Data.List.Infix
import BreakpointProps.Proofs.FileSystem.Writing

/-!
Links on the way along a path. If neither a path nor anything that it goes through is a link, then it leads
where its names say, and nothing that it leads through is a link.
-/

namespace BreakpointProps

open FileSystem (Step Place pathFault?)

namespace Path

variable {path above : Path}

section Outer

/-- What a path goes through: the paths before its slashes. -/
def outer (path : Path) : List Path :=
  (path.text.toList.inits.filter fun front => (front ++ ['/']).isPrefixOf path.text.toList).map
    fun front => ⟨String.ofList front⟩

theorem mem_outer_iff :
    above ∈ path.outer ↔ ∃ rest, path.text.toList = above.text.toList ++ '/' :: rest := by
  constructor
  · intro habove
    obtain ⟨front, hfront, rfl⟩ := List.mem_map.mp habove
    obtain ⟨rest, hrest⟩ := List.isPrefixOf_iff_prefix.mp (List.mem_filter.mp hfront).2
    exact ⟨rest, by simp [← hrest]⟩
  · rintro ⟨rest, htext⟩
    refine List.mem_map.mpr ⟨above.text.toList, List.mem_filter.mpr ⟨?_, ?_⟩, by simp⟩
    · rw [List.mem_inits, htext]
      exact List.prefix_append _ _
    · rw [List.isPrefixOf_iff_prefix, htext]
      exact ⟨rest, by simp⟩

theorem isAbsolute_of_mem_outer (habove : above ∈ path.outer) (htext : above.text ≠ "") :
    above.isAbsolute = path.isAbsolute := by
  obtain ⟨rest, hrest⟩ := mem_outer_iff.mp habove
  unfold isAbsolute
  rw [hrest, List.head?_append_of_ne_nil _ (by simpa using htext)]

theorem pathFault?_of_mem_outer (habove : above ∈ path.outer) (htext : above.text ≠ "")
    (hfault : pathFault? path = none) : pathFault? above = none := by
  obtain ⟨rest, hrest⟩ := mem_outer_iff.mp habove
  have hpath : path = ⟨above.text ++ String.ofList ('/' :: rest)⟩ := by
    refine congrArg Path.mk (String.toList_inj.mp ?_)
    simp [hrest]
  rw [hpath] at hfault
  exact pathFault?_of_prefix hfault htext

/-- Segments are taken apart where a slash stands. -/
theorem exists_segments_eq {text : List Char} {first second : List (List Char)}
    (hsegments : segments text = first ++ second) (hfirst : first ≠ []) (hsecond : second ≠ []) :
    ∃ before after, text = before ++ '/' :: after ∧ segments before = first := by
  induction text generalizing first with
  | nil =>
      rw [segments] at hsegments
      obtain ⟨segment, more, rfl⟩ := List.exists_cons_of_ne_nil hfirst
      exact absurd (List.append_eq_nil_iff.mp (List.cons.inj hsegments).2.symm).2 hsecond
  | cons c rest ih =>
      obtain ⟨segment, more, rfl⟩ := List.exists_cons_of_ne_nil hfirst
      rw [segments] at hsegments
      split at hsegments
      · rename_i hslash
        obtain ⟨rfl, hrest⟩ := List.cons.inj hsegments
        by_cases hmore : more = []
        · exact ⟨[], rest, by rw [beq_iff_eq.mp hslash]; rfl, by rw [hmore]; rfl⟩
        · obtain ⟨before, after, htext, hbefore⟩ := ih hrest hmore
          exact ⟨c :: before, after, by rw [htext]; rfl, by rw [segments, if_pos hslash, hbefore]⟩
      · rename_i hslash
        split at hsegments
        · exact absurd ‹_› (segments_ne_nil rest)
        · rename_i head others hothers
          obtain ⟨rfl, hrest⟩ := List.cons.inj hsegments
          have hhead : segments rest = (head :: more) ++ second := by rw [hothers, hrest]; rfl
          obtain ⟨before, after, htext, hbefore⟩ := ih hhead (List.cons_ne_nil head more)
          exact ⟨c :: before, after, by rw [htext]; rfl, by rw [segments, if_neg hslash, hbefore]⟩

/-- A path whose last segment is a name ends in its steps. -/
theorem route_of_segments {front : List (List Char)} {segment : List Char} {name : String}
    (hsegments : segments path.text.toList = front ++ [segment]) (hname : step? segment = some (.down name)) :
    path.route = front.filterMap step? ++ [.down name] := by
  have hslash : path.endsInSlash = false := by
    rw [endsInSlash, beq_eq_false_iff_ne]
    intro hlast
    obtain ⟨before, htext⟩ := List.getLast?_eq_some_iff.mp hlast
    rw [htext, segments_append_slash] at hsegments
    obtain rfl : [] = segment := by simpa [segments] using (List.append_inj' hsegments rfl).2
    cases hname
  rw [route, hslash, if_neg Bool.false_ne_true, List.append_nil, steps, hsegments]
  simp [hname]

/-- A step to a name is the last one of the path or of one that it goes through. -/
theorem exists_route_of_steps {before after : List Step} {name : String}
    (hsteps : path.steps = before ++ .down name :: after) :
    ∃ above ∈ path :: path.outer, above.route = before ++ [.down name] := by
  obtain ⟨front, others, hsegments, rfl, hothers⟩ := List.filterMap_eq_append_iff.mp hsteps
  obtain ⟨skipped, segment, rest, rfl, hskipped, hname, -⟩ := List.filterMap_eq_cons_iff.mp hothers
  have hfront : (front ++ skipped).filterMap step? = front.filterMap step? := by
    rw [List.filterMap_append, List.filterMap_eq_nil_iff.mpr hskipped, List.append_nil]
  rw [← List.append_assoc] at hsegments
  by_cases hrest : rest = []
  · rw [hrest] at hsegments
    exact ⟨path, List.mem_cons_self, hfront ▸ route_of_segments hsegments hname⟩
  · rw [List.append_cons] at hsegments
    obtain ⟨text, more, htext, hbefore⟩ := exists_segments_eq hsegments (by simp) hrest
    refine ⟨⟨String.ofList text⟩, List.mem_cons_of_mem _ (mem_outer_iff.mpr ⟨more, by simpa using htext⟩), ?_⟩
    exact hfront ▸ route_of_segments (by simpa using hbefore) hname

end Outer

end Path

namespace FileSystem

variable {files : FileSystem} {path : Path} {start place : Place} {steps : List Step} {links : Nat}

section Solid

/-- Is there something at a place, and is it no link? -/
def IsSolid (files : FileSystem) (place : Place) : Prop :=
  ∃ node, files.node? place = some node ∧ ∀ target, node ≠ .link target

theorem IsSolid.not_isLinkAt (hsolid : files.IsSolid place) : ¬ files.IsLinkAt place := by
  rintro ⟨target, hlink⟩
  obtain ⟨node, hnode, hother⟩ := hsolid
  exact hother target (Option.some.inj (hnode.symm.trans hlink))

theorem isSolid_of_directory (hnode : files.node? place = some .directory) : files.IsSolid place :=
  ⟨_, hnode, by simp⟩

theorem isSolid_of_file {content : ByteArray} (hnode : files.node? place = some (.file content)) :
    files.IsSolid place :=
  ⟨_, hnode, by simp⟩

/-- Where steps lead without a link, there is something, and no link. -/
theorem Passage.isSolid (hstart : files.IsGrounded start)
    (hpassage : Passage files start steps (.arrived place)) : files.IsSolid place := by
  cases hpassage with
  | directory hclear => exact isSolid_of_directory (isGrounded_ending hstart hclear.directories).node?
  | file _ _ hnode => exact isSolid_of_file hnode

/-- A walk that follows all links ends where there is something, and no link. -/
theorem isSolid_of_walk (hstart : files.IsGrounded start)
    (hwalk : files.walk true links start steps = .ok place) : files.IsSolid place := by
  induction links generalizing start steps with
  | zero =>
      obtain ⟨found, hadvance, hpassage⟩ := exists_passage_of_walk hwalk
      rw [walk, hadvance] at hwalk
      cases found with
      | link => cases hwalk
      | arrived last =>
          obtain rfl := Except.ok.inj hwalk
          exact hpassage.isSolid hstart
  | succ links ih =>
      obtain ⟨found, hadvance, hpassage⟩ := exists_passage_of_walk hwalk
      rw [walk, hadvance] at hwalk
      cases found with
      | arrived last =>
          obtain rfl := Except.ok.inj hwalk
          exact hpassage.isSolid hstart
      | link directory target rest =>
          -- The target of a link is followed from the root or from the directory of the link.
          refine ih ?_ hwalk
          unfold origin
          split
          · exact isGrounded_nil
          · cases hpassage with
            | link _ hclear => exact isGrounded_ending hstart hclear.directories

theorem IsTree.isSolid_of_place (htree : files.IsTree) (hplace : files.place path = .ok place) :
    files.IsSolid place :=
  isSolid_of_walk (htree.isGrounded_start path) (place_eq_ok_iff.mp hplace).2

end Solid

section Along

/-- A path whose last step is to a link names that link. -/
theorem isLink_of_route {before : List Step} {name : String} {target : Path} (hfault : pathFault? path = none)
    (hroute : path.route = before ++ [.down name]) (hclear : files.IsClear (files.start path) before)
    (hname : name.utf8ByteSize ≤ maxName)
    (hnode : files.node? (ending (files.start path) before ++ [name]) = some (.link target)) :
    files.isLink path = true := by
  have hwalk : files.walk false maxLinks (files.start path) path.route =
      .ok (ending (files.start path) before ++ [name]) := by
    refine walk_of_advance ?_
    rw [hroute, advance_append hclear, advance_short hname, hnode]
    rfl
  have hplace : files.placeOfEntry path = .ok (ending (files.start path) before ++ [name]) := by
    unfold placeOfEntry walkFrom
    rw [hfault]
    exact hwalk
  unfold isLink
  rw [hplace]
  simp only [hnode]

/-- A path and what it goes through start at one place, and can be followed if the path can. -/
theorem start_of_mem (files : FileSystem) {above : Path} (habove : above ∈ path :: path.outer)
    (htext : above.text ≠ "") (hfault : pathFault? path = none) :
    files.start above = files.start path ∧ pathFault? above = none := by
  rcases List.mem_cons.mp habove with rfl | houter
  · exact ⟨rfl, hfault⟩
  · refine ⟨?_, Path.pathFault?_of_mem_outer houter htext hfault⟩
    rw [start, start, origin, origin, Path.isAbsolute_of_mem_outer houter htext]

theorem exists_steps_of_route {before rest : List Step} {name : String}
    (hroute : path.route = before ++ .down name :: rest) :
    ∃ after, path.steps = before ++ .down name :: after := by
  unfold Path.route at hroute
  split at hroute
  · rcases List.eq_nil_or_concat rest with rfl | ⟨more, last, rfl⟩
    · exact absurd (List.append_inj' hroute rfl).2 (by simp)
    · rw [List.concat_eq_append, ← List.cons_append, ← List.append_assoc] at hroute
      exact ⟨more, (List.append_inj' hroute rfl).1⟩
  · exact ⟨rest, (List.append_nil _).symm.trans hroute⟩

/-- If neither a path nor what it goes through is a link, it leads where its names say, and through no
link. -/
theorem place_of_not_isLink (hplace : files.place path = .ok place)
    (hlinks : ∀ above ∈ path :: path.outer, files.isLink above = false) :
    place = files.spot path ∧ ∀ place ∈ files.onWay path, ¬ files.IsLinkAt place := by
  obtain ⟨hfault, hwalk⟩ := place_eq_ok_iff.mp hplace
  obtain ⟨found, hadvance, hpassage⟩ := exists_passage_of_walk hwalk
  have hway : entered (files.start path) path.route = files.onWay path := entered_route _
  cases hpassage with
  | directory hclear =>
      obtain rfl := Except.ok.inj ((walk_of_advance hadvance).symm.trans hwalk)
      refine ⟨ending_route _, fun place hmem => ?_⟩
      exact (isSolid_of_directory (hclear.directories place (hway ▸ hmem))).not_isLinkAt
  | @file before name content hroute hclear hnode =>
      obtain rfl := Except.ok.inj ((walk_of_advance hadvance).symm.trans hwalk)
      rw [hroute, entered_append] at hway
      have hspot : ending (files.start path) before ++ [name] = files.spot path := by
        have hending := ending_append (files.start path) before [.down name]
        rw [← hroute, ending_route] at hending
        exact hending.symm
      refine ⟨hspot, fun place hmem => ?_⟩
      rw [← hway] at hmem
      rcases List.mem_append.mp hmem with habove | hlast
      · exact (isSolid_of_directory (hclear.directories place habove)).not_isLinkAt
      · obtain rfl := List.mem_singleton.mp hlast
        exact (isSolid_of_file hnode).not_isLinkAt
  | link hroute hclear hname hnode =>
      -- The first link on the way is named by the path or by one that it goes through.
      obtain ⟨after, hsteps⟩ := exists_steps_of_route hroute
      obtain ⟨above, habove, hends⟩ := Path.exists_route_of_steps hsteps
      have htext : above.text ≠ "" := by
        intro hempty
        obtain rfl : above = ⟨""⟩ := congrArg Path.mk hempty
        have hroute : (Path.mk "").route = [] := by decide
        exact absurd (hroute.symm.trans hends) (by simp)
      obtain ⟨hstart, hfault'⟩ := start_of_mem files habove htext hfault
      rw [← hstart] at hclear hnode
      exact absurd (isLink_of_route hfault' hends hclear hname hnode) (by simp [hlinks above habove])

end Along

end FileSystem

end BreakpointProps
