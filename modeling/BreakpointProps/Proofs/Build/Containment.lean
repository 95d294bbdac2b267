import BreakpointProps.Build
import BreakpointProps.Proofs.FileSystem.Walk
import BreakpointProps.Proofs.Path.Output

/-!
A build writes its results below the directory for them, whatever the inputs are called, and a directory
or a report outside the working directory is refused before anything is done.
-/

namespace BreakpointProps

namespace Path

theorem startsWith_of_components {path start : Path} {rest : List Component}
    (hpath : path.components = start.components ++ rest) : path.startsWith start = true := by
  rw [startsWith, hpath, List.isPrefixOf_iff_prefix]
  exact List.prefix_append _ _

theorem startsWith_trans {path between start : Path} (hpath : path.startsWith between = true)
    (hbetween : between.startsWith start = true) : path.startsWith start = true := by
  rw [startsWith, List.isPrefixOf_iff_prefix] at *
  exact hbetween.trans hpath

/-- A result and what is written beside it: its source map, and the two files that the texts are
written to at first. -/
def resultPaths (output : Path) : List Path :=
  [output, output.sidecar, FileSystem.temporary output, FileSystem.temporary output.sidecar]

theorem isBehind_of_mem_resultPaths {input directory workingDirectory path : Path}
    (hpath : path ∈ (input.outputFor directory workingDirectory).resultPaths) :
    IsBehind directory path := by
  have hmap : IsEnding ".map" := ⟨by decide, by decide⟩
  have htmp : IsEnding ".tmp" := ⟨by decide, by decide⟩
  have houtput := isBehind_outputFor input directory workingDirectory
  simp only [resultPaths, List.mem_cons, List.not_mem_nil, or_false] at hpath
  rcases hpath with rfl | rfl | rfl | rfl
  · exact houtput
  · exact houtput.extended hmap
  · exact houtput.extended htmp
  · exact (houtput.extended hmap).extended htmp

end Path

namespace FileSystem

theorem isAbsolute_of_canonical {files : FileSystem} {path base : Path}
    (hbase : files.canonical path = .ok base) : base.isAbsolute = true := by
  obtain ⟨place, _, rfl⟩ := exists_place_of_canonical hbase
  exact Path.isAbsolute_ofComponents_root _

end FileSystem

namespace BuildRequest

/-- The paths that a build is told to write to. -/
def outputs (request : BuildRequest) : List Path := request.outDirectory :: request.report.toList

/-- Does a path, resolved by its text, lead out of a directory? -/
def LeadsOut (base path : Path) : Prop :=
  path.isAbsolute = false ∧ (path.lexicalAbsolute base).startsWith base = false

theorem outputViolation?_eq {files : FileSystem} {policy : Policy} {base path : Path}
    (hbase : files.canonical policy.workingDirectory = .ok base) :
    policy.outputViolation? files path =
      if path.isAbsolute || (path.lexicalAbsolute base).startsWith base then none
      else some (.traversal path) := by
  rw [Policy.outputViolation?, Policy.base, hbase]

theorem outputViolation?_of_leadsOut {files : FileSystem} {policy : Policy} {base path : Path}
    (hbase : files.canonical policy.workingDirectory = .ok base) (hout : LeadsOut base path) :
    policy.outputViolation? files path = some (.traversal path) := by
  rw [outputViolation?_eq hbase, hout.1, hout.2]
  rfl

theorem leadsOut_of_outputViolation? {files : FileSystem} {policy : Policy} {base path : Path}
    {reason : Violation} (hbase : files.canonical policy.workingDirectory = .ok base)
    (hreason : policy.outputViolation? files path = some reason) :
    LeadsOut base path ∧ reason = .traversal path := by
  rw [outputViolation?_eq hbase] at hreason
  split at hreason
  · exact absurd hreason (by simp)
  · rename_i hout
    rw [Bool.not_eq_true, Bool.or_eq_false_iff] at hout
    exact ⟨hout, (Option.some.inj hreason).symm⟩

/-- A build that is told to write outside its working directory does nothing. -/
theorem runWith_of_leadsOut {files : FileSystem} {policy : Policy} {base : Path}
    (hbase : files.canonical policy.workingDirectory = .ok base) {request : BuildRequest}
    (hout : ∃ path ∈ request.outputs, LeadsOut base path) (clock : BuildClock) (config : Config) :
    ∃ path ∈ request.outputs, LeadsOut base path ∧
      request.runWith clock config policy files =
        ⟨files, [], .error (.violation (.traversal path))⟩ := by
  have hviolation : ∃ path ∈ request.outputs, LeadsOut base path ∧
      request.outputViolation? files policy = some (.traversal path) := by
    unfold BuildRequest.outputViolation?
    cases hdirectory : policy.outputViolation? files request.outDirectory with
    | some reason =>
        obtain ⟨hleads, rfl⟩ := leadsOut_of_outputViolation? hbase hdirectory
        exact ⟨request.outDirectory, List.mem_cons_self, hleads, rfl⟩
    | none =>
        obtain ⟨path, hmem, hleads⟩ := hout
        have hpath := outputViolation?_of_leadsOut hbase hleads
        rcases List.mem_cons.mp hmem with rfl | hreport
        · exact absurd (hdirectory.symm.trans hpath) (by simp)
        · have hreport := Option.mem_toList.mp hreport
          exact ⟨path, hmem, hleads, by rw [hreport]; exact hpath⟩
  obtain ⟨path, hmem, hleads, hviolation⟩ := hviolation
  refine ⟨path, hmem, hleads, ?_⟩
  rw [runWith, hviolation]

/-- In a working directory that leads to a base, what a build writes for an input, however the input is
named, is below the accepted directory for results and so below the base when it is resolved by
its text. A directory for results or a report that leads out of the base is refused: no file is
selected and none is changed. -/
theorem results_stay_below {files : FileSystem} {policy : Policy} {base : Path}
    (hbase : files.canonical policy.workingDirectory = .ok base) :
    (∀ directory : Path, directory.isAbsolute = false →
      policy.outputViolation? files directory = none →
      ∀ input : Path, ∀ path ∈ (input.outputFor directory policy.workingDirectory).resultPaths,
        (path.lexicalAbsolute base).startsWith (directory.lexicalAbsolute base) = true ∧
          (path.lexicalAbsolute base).startsWith base = true) ∧
    ∀ request : BuildRequest, (∃ path ∈ request.outputs, LeadsOut base path) →
      ∀ (clock : BuildClock) (config : Config), ∃ path ∈ request.outputs, LeadsOut base path ∧
        request.runWith clock config policy files =
          ⟨files, [], .error (.violation (.traversal path))⟩ := by
  refine ⟨fun directory hrelative haccepted input path hpath => ?_,
    fun request hout clock config => runWith_of_leadsOut hbase hout clock config⟩
  obtain ⟨names, hnames, rfl⟩ := Path.isBehind_of_mem_resultPaths hpath
  have hbelow := Path.startsWith_of_components (Path.lexicalAbsolute_join_names
    (Path.text_ne_of_isAbsolute (FileSystem.isAbsolute_of_canonical hbase)) hrelative hnames)
  have hdirectory : (directory.lexicalAbsolute base).startsWith base = true := by
    rw [outputViolation?_eq hbase, hrelative, Bool.false_or] at haccepted
    by_contra hleads
    rw [if_neg hleads] at haccepted
    exact absurd haccepted (by simp)
  exact ⟨hbelow, Path.startsWith_trans hbelow hdirectory⟩

/-- A working directory and a link to it beside it. -/
def linkedFiles : FileSystem where
  entries := [(["w"], .directory), (["l"], .link ⟨"w"⟩)]
  workingDirectory := ["w"]

/-- A build with a report that leads out of its working directory. -/
def overshooting : BuildRequest :=
  { input := ["*.jsx"], outDirectory := ⟨"b"⟩, report := some ⟨"b/../../r"⟩ }

/-- With the working directory reached through the link, a directory for results may leave it and enter
it again, and the report stops the build. -/
theorem results_stay_below_linked :
    linkedFiles.canonical ⟨"../l"⟩ = .ok ⟨"/w"⟩ ∧
      ((Path.mk "/etc/../p.jsx").outputFor ⟨"a/../../w/b"⟩ ⟨"../l"⟩).sidecar.text =
        "a/../../w/b/etc/p.jsx.map" ∧
      (((Path.mk "/etc/../p.jsx").outputFor ⟨"a/../../w/b"⟩ ⟨"../l"⟩).sidecar.lexicalAbsolute
        ⟨"/w"⟩).startsWith ((Path.mk "a/../../w/b").lexicalAbsolute ⟨"/w"⟩) = true ∧
      ∀ (clock : BuildClock) (config : Config), ∃ path ∈ overshooting.outputs,
        LeadsOut ⟨"/w"⟩ path ∧
          overshooting.runWith clock config { workingDirectory := ⟨"../l"⟩ } linkedFiles =
            ⟨linkedFiles, [], .error (.violation (.traversal path))⟩ := by
  have hbase : linkedFiles.canonical (Policy.mk 0 false ⟨"../l"⟩).workingDirectory = .ok ⟨"/w"⟩ := by
    decide +kernel
  refine ⟨hbase, by decide +kernel, ?_, fun clock config => ?_⟩
  · exact ((results_stay_below hbase).1 ⟨"a/../../w/b"⟩ (by decide) (by decide +kernel)
      ⟨"/etc/../p.jsx"⟩ _ (List.mem_cons_of_mem _ List.mem_cons_self)).1
  · exact (@results_stay_below linkedFiles { workingDirectory := ⟨"../l"⟩ } _ hbase).2 overshooting
      ⟨⟨"b/../../r"⟩, by decide, by decide, by decide +kernel⟩ clock config

end BuildRequest

end BreakpointProps
