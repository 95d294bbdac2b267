import BreakpointProps.Proofs.Build.Selection
import BreakpointProps.Proofs.FileSystem.Links

/-!
Links among the files of a build. A selected file is no link, or a link that is allowed and leads to a file in
the working directory. What a path goes through is not looked at, so a file behind a linked directory
may stand anywhere.
-/

namespace BreakpointProps

open FileSystem (pathOf)

/-- Nothing speaks against a path as a link if it is none, or if links are allowed and it leads to something
in the working directory. -/
theorem Policy.linkViolation?_eq_none_iff {policy : Policy} {files : FileSystem} {path : Path} :
    policy.linkViolation? files path = none ↔
      files.isLink path = false ∨ (policy.allowLinks = true ∧
        ∃ target, files.canonical path = .ok target ∧ target.startsWith (policy.base files) = true) := by
  unfold linkViolation?
  cases hlink : files.isLink path with
  | false => simp
  | true =>
      cases hallow : policy.allowLinks with
      | false => simp
      | true =>
          cases htarget : files.canonical path with
          | error fault => simp
          | ok target => cases hinside : target.startsWith (policy.base files) <;> simp [hinside]

namespace Selection

variable {files : FileSystem} {policy : Policy} {patterns excludes : List String} {chosen : List (Path × Nat)}

/-- In a tree, a selected path leads to a file. -/
theorem exists_file_of_select (htree : files.IsTree)
    (hselect : (select files policy patterns excludes).result = .ok chosen) {entry : Path × Nat}
    (hentry : entry ∈ chosen) :
    ∃ place content, files.place entry.1 = .ok place ∧ files.node? place = some (.file content) := by
  obtain ⟨place, node, hplace, hnode, hdirectory⟩ := exists_nodeAt_of_select hselect hentry
  have hlink := (htree.isSolid_of_place hplace).not_isLinkAt
  cases node with
  | file content => exact ⟨place, content, hplace, hnode⟩
  | directory => exact absurd rfl hdirectory
  | link target => exact absurd ⟨target, hnode⟩ hlink

/-- Where links are not allowed a selected path is none, and if it goes through none either, it leads through no
link at all. Where they are allowed, one that is a link leads to a file in the working directory, whatever it
goes through. -/
theorem links_confined (htree : files.IsTree)
    (hselect : (select files policy patterns excludes).result = .ok chosen) {entry : Path × Nat}
    (hentry : entry ∈ chosen) :
    (policy.allowLinks = false →
      files.isLink entry.1 = false ∧
        ((∀ above ∈ entry.1.outer, files.isLink above = false) →
          (∀ above ∈ entry.1 :: entry.1.outer, files.isLink above = false) ∧
            files.place entry.1 = .ok (files.spot entry.1) ∧
            ∀ place ∈ files.onWay entry.1, ¬ files.IsLinkAt place)) ∧
    (policy.allowLinks = true → files.isLink entry.1 = true →
      ∃ place content, files.canonical entry.1 = .ok (pathOf place) ∧
        (pathOf place).startsWith (policy.base files) = true ∧
        files.node? place = some (.file content)) := by
  obtain ⟨place, content, hplace, hnode⟩ := exists_file_of_select htree hselect hentry
  have hallowed := Policy.linkViolation?_eq_none_iff.mp
    (Option.or_eq_none_iff.mp ((select_sound hselect).2 entry hentry).2).1
  constructor
  · intro hforbidden
    have hself : files.isLink entry.1 = false := by
      rcases hallowed with hself | ⟨hallow, -⟩
      · exact hself
      · exact absurd (hforbidden.symm.trans hallow) nofun
    refine ⟨hself, fun houter => ?_⟩
    have hall : ∀ above ∈ entry.1 :: entry.1.outer, files.isLink above = false :=
      List.forall_mem_cons.mpr ⟨hself, houter⟩
    obtain ⟨rfl, hway⟩ := FileSystem.place_of_not_isLink hplace hall
    exact ⟨hall, hplace, hway⟩
  · intro _ hself
    rcases hallowed with hother | ⟨-, target, hcanonical, hinside⟩
    · exact absurd (hself.symm.trans hother) nofun
    · obtain ⟨found, hfound, rfl⟩ := FileSystem.exists_place_of_canonical hcanonical
      obtain rfl := Except.ok.inj (hfound.symm.trans hplace)
      exact ⟨found, content, hcanonical, hinside, hnode⟩

/-- A file in the working directory with a link to it, and one outside behind a linked directory. -/
def linkedFiles : FileSystem where
  entries := [(["w"], .directory), (["w", "a.jsx"], .file "x".toUTF8), (["w", "s"], .directory),
    (["w", "s", "b.jsx"], .link ⟨"../a.jsx"⟩), (["out"], .directory), (["out", "c.jsx"], .file "y".toUTF8),
    (["w", "dir"], .link ⟨"../out"⟩)]
  workingDirectory := ["w"]

theorem isTree_linkedFiles : linkedFiles.IsTree := ⟨by decide +kernel, by decide +kernel⟩

theorem select_linkedFile :
    (select linkedFiles { allowLinks := true, workingDirectory := ⟨"/w"⟩ } ["s/b.jsx"] []).result =
      .ok [(⟨"s/b.jsx"⟩, 1)] :=
  (select_of_isSpelling (by decide +kernel)).trans (congrArg Except.ok (by decide +kernel))

/-- The link leads to the file in the working directory. -/
theorem links_confined_allowed :
    linkedFiles.IsTree ∧
      (select linkedFiles { allowLinks := true, workingDirectory := ⟨"/w"⟩ } ["s/b.jsx"] []).result =
        .ok [(⟨"s/b.jsx"⟩, 1)] ∧
      linkedFiles.isLink ⟨"s/b.jsx"⟩ = true ∧
      ∃ place content, linkedFiles.canonical ⟨"s/b.jsx"⟩ = .ok (pathOf place) ∧
        (pathOf place).startsWith ⟨"/w"⟩ = true ∧ linkedFiles.node? place = some (.file content) := by
  have hself : linkedFiles.isLink ⟨"s/b.jsx"⟩ = true := by decide +kernel
  refine ⟨isTree_linkedFiles, select_linkedFile, hself, ?_⟩
  obtain ⟨place, content, hcanonical, hinside, hnode⟩ := (links_confined isTree_linkedFiles select_linkedFile
    List.mem_cons_self).2 rfl hself
  have hbase : (Policy.base { allowLinks := true, workingDirectory := ⟨"/w"⟩ } linkedFiles) = ⟨"/w"⟩ := by
    decide +kernel
  exact ⟨place, content, hcanonical, hbase ▸ hinside, hnode⟩

/-- A file outside of the working directory that is reached through a linked directory is selected, whether
links are allowed or not. -/
theorem select_behind_link (allowLinks : Bool) :
    (select linkedFiles { allowLinks, workingDirectory := ⟨"/w"⟩ } ["dir/c.jsx"] []).result =
        .ok [(⟨"dir/c.jsx"⟩, 1)] ∧
      linkedFiles.isLink ⟨"dir"⟩ = true ∧
      (linkedFiles.canonical ⟨"dir/c.jsx"⟩).toOption = some ⟨"/out/c.jsx"⟩ := by
  refine ⟨(select_of_isSpelling (by decide +kernel)).trans (congrArg Except.ok ?_), by decide +kernel,
    by decide +kernel⟩
  cases allowLinks <;> decide +kernel

end Selection

end BreakpointProps
