import Mathlib.Data.List.Basic
import BreakpointProps.Proofs.Build.Selection

/-!
What patterns select for a build: of the paths that they stand for, in the order in which these are found,
each wanted one when it occurs for the first time. What cannot be evaluated stops the selection, the
first of it in the order of evaluation.
-/

namespace BreakpointProps.Selection

section Distinct

/-- Are two paths the same, however they are spelled? -/
def areSame (path other : Path) : Bool := path.components == other.components

/-- Paths in order, each when it occurs for the first time. -/
def distinct (paths : List Path) : List Path := paths.eraseDupsBy areSame

/-- One more path behind paths that have been met. -/
def met (paths : List Path) (path : Path) : List Path :=
  if paths.any (areSame path) then paths else paths ++ [path]

theorem loop_eraseDupsBy (paths known : List Path) :
    List.eraseDupsBy.loop areSame paths known = paths.foldl met known.reverse := by
  induction paths generalizing known with
  | nil => rfl
  | cons path rest ih =>
      rw [List.eraseDupsBy.loop, List.foldl_cons, met, List.any_reverse]
      cases known.any (areSame path) with
      | true => exact ih known
      | false => exact (ih (path :: known)).trans (by rw [List.reverse_cons]; rfl)

theorem distinct_eq_foldl (paths : List Path) : distinct paths = paths.foldl met [] :=
  loop_eraseDupsBy paths []

theorem distinct_append (paths more : List Path) : distinct (paths ++ more) = more.foldl met (distinct paths) := by
  rw [distinct_eq_foldl, distinct_eq_foldl, List.foldl_append]

theorem any_met_of_any {known : List Path} {path : Path} (hknown : known.any (areSame path) = true)
    (other : Path) : (met known other).any (areSame path) = true := by
  unfold met
  split
  · exact hknown
  · rw [List.any_append, hknown, Bool.true_or]

theorem any_met_self (known : List Path) (path : Path) : (met known path).any (areSame path) = true := by
  unfold met
  split
  · assumption
  · simp [areSame]

theorem any_foldl_met {known : List Path} {path : Path} (hknown : known.any (areSame path) = true)
    (paths : List Path) : (paths.foldl met known).any (areSame path) = true := by
  induction paths generalizing known with
  | nil => exact hknown
  | cons other rest ih => exact ih (any_met_of_any hknown other)

/-- Each path is met, though perhaps in another spelling. -/
theorem any_distinct_of_mem {path : Path} {paths : List Path} (hpath : path ∈ paths) :
    (distinct paths).any (areSame path) = true := by
  obtain ⟨front, back, rfl⟩ := List.append_of_mem hpath
  rw [distinct_append, List.foldl_cons]
  exact any_foldl_met (any_met_self _ path) back

/-- Paths that have occurred before add nothing. -/
theorem distinct_append_of_subset {paths more : List Path} (hmore : more ⊆ paths) :
    distinct (paths ++ more) = distinct paths := by
  rw [distinct_append]
  induction more with
  | nil => rfl
  | cons path rest ih =>
      obtain ⟨hpath, hrest⟩ := List.cons_subset.mp hmore
      rw [List.foldl_cons, met, if_pos (any_distinct_of_mem hpath)]
      exact ih hrest

theorem mem_foldl_met {known paths : List Path} {path : Path} (hpath : path ∈ paths.foldl met known) :
    path ∈ known ∨ path ∈ paths := by
  induction paths generalizing known with
  | nil => exact Or.inl hpath
  | cons other rest ih =>
      rcases ih hpath with hmet | hrest
      · unfold met at hmet
        split at hmet
        · exact Or.inl hmet
        · rcases List.mem_append.mp hmet with hold | hlast
          · exact Or.inl hold
          · exact Or.inr (List.mem_cons.mpr (Or.inl (List.mem_singleton.mp hlast)))
      · exact Or.inr (List.mem_cons_of_mem other hrest)

theorem mem_of_mem_distinct {path : Path} {paths : List Path} (hpath : path ∈ distinct paths) : path ∈ paths := by
  rw [distinct_eq_foldl] at hpath
  exact (mem_foldl_met hpath).resolve_left List.not_mem_nil

end Distinct

section Findings

/-- What a pattern stands for, in order: paths, and what keeps from finding more. -/
def findings (engine : Glob.Engine) (files : FileSystem) (text : String) : List (Except Failure Path) :=
  match engine.expand files text with
  | .error flaw => [.error (.pattern flaw)]
  | .ok found => found.map (Except.mapError .unreadable)

/-- The failure that a finding is. -/
def failure? : Except Failure Path → Option Failure
  | .error failure => some failure
  | .ok _ => none

/-- What is wrong with a pattern for what is left out. -/
def excludeFailure? (engine : Glob.Engine) (text : String) : Option Failure :=
  match engine.fits text with
  | .error flaw => some (.pattern flaw)
  | .ok _ => none

/-- What keeps from a selection, in the order of evaluation: first the patterns for what is left out, and then
what is found for the others, one after the other. -/
def failures (engine : Glob.Engine) (files : FileSystem) (patterns excludes : List String) : List Failure :=
  excludes.filterMap (excludeFailure? engine) ++ (patterns.flatMap (findings engine files)).filterMap failure?

/-- The paths that patterns stand for, in the order in which they are found. -/
def occurrences (engine : Glob.Engine) (files : FileSystem) (patterns : List String) : List Path :=
  (patterns.flatMap (findings engine files)).filterMap Except.toOption

/-- Does a pattern stand for a path? -/
def standsFor (engine : Glob.Engine) (path : Path) (text : String) : Bool :=
  (engine.fits text).toOption.any fun fits => fits path

/-- Is a path selected where it is found? No pattern leaves it out, it leads to no directory, and nothing speaks
against it as an input. -/
def isWanted (engine : Glob.Engine) (files : FileSystem) (policy : Policy) (excludes : List String)
    (path : Path) : Bool :=
  !excludes.any (standsFor engine path) && !files.isDirectory path &&
    (policy.inputViolation? files path).isNone

end Findings

section Run

variable {rules : Rules} {selection : Selection}

/-- Is a path selected by some rules? -/
def Rules.takes (rules : Rules) (path : Path) : Bool :=
  !rules.leavesOut path && (rules.policy.inputViolation? rules.files path).isNone

/-- Is what has been selected what paths come to? -/
def IsOf (rules : Rules) (selection : Selection) (paths : List Path) : Prop :=
  selection.chosen = (distinct (paths.filter rules.takes)).map fun path => (path, sizeOf rules.files path)

theorem IsOf.contains_eq {paths : List Path} (hof : IsOf rules selection paths) (path : Path) :
    selection.contains path = (distinct (paths.filter rules.takes)).any (areSame path) := by
  rw [contains, hof, List.any_map]
  exact congrArg (List.any _) (funext fun other => Bool.beq_comm)

/-- A path is added if the rules take it and it was not there. -/
theorem chosen_consider (rules : Rules) (selection : Selection) (path : Path) :
    (selection.consider rules path).chosen =
      if rules.takes path = true ∧ selection.contains path = false then
        selection.chosen ++ [(path, sizeOf rules.files path)]
      else selection.chosen := by
  unfold Selection.consider Rules.takes
  cases rules.leavesOut path with
  | true => rfl
  | false =>
      cases rules.policy.inputViolation? rules.files path with
      | some violation => rfl
      | none => cases hcontains : selection.contains path <;> simp

/-- A decision on one more path. -/
theorem IsOf.consider {paths : List Path} (hof : IsOf rules selection paths) (path : Path) :
    IsOf rules (selection.consider rules path) (paths ++ [path]) := by
  unfold IsOf
  rw [chosen_consider, List.filter_append]
  cases htakes : rules.takes path with
  | false => rwa [List.filter_cons_of_neg (by simp [htakes]), List.filter_nil, List.append_nil, if_neg (by simp)]
  | true =>
      rw [List.filter_cons_of_pos htakes, List.filter_nil, distinct_append, List.foldl_cons, List.foldl_nil, met,
        ← hof.contains_eq]
      cases selection.contains path with
      | true => exact hof
      | false =>
          rw [if_pos ⟨rfl, rfl⟩, if_neg Bool.false_ne_true, List.map_append, hof]
          rfl

/-- Decisions on all that is found for a pattern. -/
theorem considerAll_eq {paths : List Path} (hof : IsOf rules selection paths) (found : List Glob.Finding) :
    let done := selection.considerAll rules found
    let results := found.map (Except.mapError Failure.unreadable)
    done.2 = results.findSome? failure? ∧
      (done.2 = none → IsOf rules done.1 (paths ++ results.filterMap Except.toOption)) := by
  induction found generalizing selection paths with
  | nil => exact ⟨rfl, fun _ => by rwa [List.map_nil, List.filterMap_nil, List.append_nil]⟩
  | cons finding rest ih =>
      cases finding with
      | error directory => exact ⟨rfl, nofun⟩
      | ok path =>
          obtain ⟨hfailure, hrest⟩ := ih (hof.consider path)
          refine ⟨hfailure, fun hnone => ?_⟩
          have hall := hrest hnone
          rwa [List.append_assoc] at hall

/-- Decisions on all that is found for all patterns. -/
theorem considerPatterns_eq (engine : Glob.Engine) {paths : List Path} (hof : IsOf rules selection paths)
    (patterns : List String) :
    let done := selection.considerPatterns engine rules patterns
    done.2 = (patterns.flatMap (findings engine rules.files)).findSome? failure? ∧
      (done.2 = none → IsOf rules done.1 (paths ++ occurrences engine rules.files patterns)) := by
  induction patterns generalizing selection paths with
  | nil => exact ⟨rfl, fun _ => by rwa [occurrences, List.flatMap_nil, List.filterMap_nil, List.append_nil]⟩
  | cons text rest ih =>
      rw [considerPatterns]
      simp only [occurrences, List.flatMap_cons, List.findSome?_append, List.filterMap_append]
      rw [findings]
      cases engine.expand rules.files text with
      | error flaw =>
          refine ⟨rfl, fun hnone => ?_⟩
          cases hnone
      | ok found =>
          obtain ⟨hfailure, hfound⟩ := considerAll_eq hof found
          dsimp only at hfailure hfound ⊢
          generalize selection.considerAll rules found = done at hfailure hfound
          obtain ⟨considered, failure?⟩ := done
          dsimp only at hfailure hfound
          rw [← hfailure]
          cases failure? with
          | some failure =>
              refine ⟨rfl, fun hnone => ?_⟩
              cases hnone
          | none =>
              obtain ⟨hlater, hrest⟩ := ih (hfound rfl)
              refine ⟨hlater, fun hnone => ?_⟩
              have hall := hrest hnone
              rwa [List.append_assoc] at hall

end Run

section Select

variable {engine : Glob.Engine} {files : FileSystem} {policy : Policy} {patterns excludes : List String}

/-- The patterns for what is left out are read one after the other, up to the first that is none. -/
theorem mapM_fits_cases (engine : Glob.Engine) (excludes : List String) :
    (∃ flaw, excludes.mapM engine.fits = .error flaw ∧
        (excludes.filterMap (excludeFailure? engine)).head? = some (.pattern flaw)) ∨
      ∃ fits, excludes.mapM engine.fits = .ok fits ∧ excludes.filterMap (excludeFailure? engine) = [] ∧
        ∀ path : Path, fits.any (fun fits => fits path) = excludes.any (standsFor engine path) := by
  induction excludes with
  | nil => exact Or.inr ⟨[], rfl, rfl, fun _ => rfl⟩
  | cons text rest ih =>
      rw [List.mapM_cons, List.filterMap_cons, excludeFailure?]
      cases htext : engine.fits text with
      | error flaw => exact Or.inl ⟨flaw, rfl, rfl⟩
      | ok fit =>
          rcases ih with ⟨flaw, hrest, hhead⟩ | ⟨fits, hrest, hnone, hany⟩
          · exact Or.inl ⟨flaw, by rw [hrest]; rfl, hhead⟩
          · refine Or.inr ⟨fit :: fits, by rw [hrest]; rfl, hnone, fun path => ?_⟩
            rw [List.any_cons, List.any_cons, hany, standsFor, htext]
            rfl

/-- Before anything has been found, nothing is selected. -/
theorem isOf_empty (rules : Rules) : IsOf rules {} [] := rfl

/-- A selection fails with the first of its failures. -/
theorem selectBy_of_failure {failure : Failure}
    (hfailure : (failures engine files patterns excludes).head? = some failure) :
    (selectBy engine files policy patterns excludes).result = .error failure := by
  unfold failures at hfailure
  unfold selectBy
  rcases mapM_fits_cases engine excludes with ⟨flaw, hfits, hhead⟩ | ⟨fits, hfits, hnone, -⟩
  · rw [List.head?_append, hhead] at hfailure
    rw [hfits, ← Option.some.inj hfailure]
  · rw [hnone, List.nil_append, List.head?_filterMap] at hfailure
    have hstop := (considerPatterns_eq engine (isOf_empty ⟨files, policy, fits⟩) patterns).1
    rw [hfits]
    dsimp only at hstop ⊢
    rw [hfailure] at hstop
    generalize considerPatterns engine ⟨files, policy, fits⟩ {} patterns = done at hstop
    obtain ⟨selection, stop?⟩ := done
    obtain rfl := hstop
    rfl

/-- A selection without failures is that of the wanted paths. -/
theorem selectBy_of_no_failure (hnone : failures engine files patterns excludes = []) :
    (selectBy engine files policy patterns excludes).result =
      .ok ((distinct ((occurrences engine files patterns).filter (isWanted engine files policy excludes))).map
        fun path => (path, sizeOf files path)) := by
  obtain ⟨hexcludes, hpatterns⟩ := List.append_eq_nil_iff.mp hnone
  unfold selectBy
  rcases mapM_fits_cases engine excludes with ⟨flaw, -, hhead⟩ | ⟨fits, hfits, -, hany⟩
  · rw [hexcludes] at hhead
    exact absurd hhead nofun
  · obtain ⟨hstop, hchosen⟩ := considerPatterns_eq engine (isOf_empty ⟨files, policy, fits⟩) patterns
    have htakes : Rules.takes ⟨files, policy, fits⟩ = isWanted engine files policy excludes := by
      funext path
      rw [Rules.takes, Rules.leavesOut, hany, Bool.not_or]
      rfl
    rw [hfits]
    dsimp only at hstop hchosen ⊢
    rw [← List.head?_filterMap, hpatterns] at hstop
    have hof := hchosen hstop
    generalize considerPatterns engine ⟨files, policy, fits⟩ {} patterns = done at hstop hof
    obtain ⟨selection, stop?⟩ := done
    obtain rfl := hstop
    rw [IsOf, htakes] at hof
    exact congrArg Except.ok hof

/-- A wanted path has a size. -/
theorem sizeAt_of_isWanted {path : Path} (hwanted : isWanted engine files policy excludes path = true) :
    files.sizeAt path = .ok (sizeOf files path) := by
  unfold isWanted at hwanted
  rw [Bool.and_eq_true, Option.isNone_iff_eq_none] at hwanted
  have hsize := (Option.or_eq_none_iff.mp hwanted.2).2
  unfold Policy.sizeViolation? at hsize
  unfold sizeOf
  cases hat : files.sizeAt path with
  | error fault =>
      rw [hat] at hsize
      cases hsize
  | ok size => rfl

/-- A pattern that adds nothing to what those before it stand for can be left out. -/
theorem selectBy_of_covered {front back : List String} {text : String}
    (hcovered : findings engine files text ⊆ front.flatMap (findings engine files)) :
    (selectBy engine files policy (front ++ text :: back) excludes).result =
      (selectBy engine files policy (front ++ back) excludes).result := by
  have hhead : (failures engine files (front ++ text :: back) excludes).head? =
      (failures engine files (front ++ back) excludes).head? := by
    simp only [failures, List.flatMap_append, List.flatMap_cons, List.filterMap_append, List.head?_append]
    cases hfront : ((front.flatMap (findings engine files)).filterMap failure?).head? with
    | some failure => simp
    | none =>
        have hnil := List.subset_nil.mp
          (List.head?_eq_none_iff.mp hfront ▸ List.filterMap_subset failure? hcovered)
        rw [hnil, List.head?_nil, Option.none_or]
  cases hfailures : failures engine files (front ++ text :: back) excludes with
  | cons failure rest =>
      rw [hfailures, List.head?_cons] at hhead
      rw [selectBy_of_failure (by rw [hfailures, List.head?_cons]), selectBy_of_failure hhead.symm]
  | nil =>
      rw [hfailures, List.head?_nil, eq_comm, List.head?_eq_none_iff] at hhead
      rw [selectBy_of_no_failure hfailures, selectBy_of_no_failure hhead]
      have hpaths := List.filter_subset (isWanted engine files policy excludes)
        (List.filterMap_subset Except.toOption hcovered)
      simp only [occurrences, List.flatMap_append, List.flatMap_cons, List.filterMap_append, List.filter_append]
      rw [← List.append_assoc, distinct_append, distinct_append_of_subset hpaths, ← distinct_append]

/-- A selection fails with the first failure in the order of evaluation. Without any it consists of the wanted
paths, each with its size, in the order in which they occur for the first time. A pattern that comes again,
or that stands for nothing new, does not change it. -/
theorem select_eq_wanted (engine : Glob.Engine) (files : FileSystem) (policy : Policy)
    (patterns excludes : List String) :
    (∀ failure, (failures engine files patterns excludes).head? = some failure →
      (selectBy engine files policy patterns excludes).result = .error failure) ∧
    (failures engine files patterns excludes = [] →
      ∃ chosen, (selectBy engine files policy patterns excludes).result = .ok chosen ∧
        chosen.map Prod.fst =
          distinct ((occurrences engine files patterns).filter (isWanted engine files policy excludes)) ∧
        ∀ entry ∈ chosen, files.sizeAt entry.1 = .ok entry.2) ∧
    ∀ front text back, patterns = front ++ text :: back →
      (text ∈ front ∨ findings engine files text ⊆ front.flatMap (findings engine files)) →
      (selectBy engine files policy patterns excludes).result =
        (selectBy engine files policy (front ++ back) excludes).result := by
  refine ⟨fun failure hfailure => selectBy_of_failure hfailure, fun hnone => ?_, ?_⟩
  · refine ⟨_, selectBy_of_no_failure hnone, ?_, fun entry hentry => ?_⟩
    · rw [List.map_map]
      exact List.map_id _
    · obtain ⟨path, hpath, rfl⟩ := List.mem_map.mp hentry
      exact sizeAt_of_isWanted (List.mem_filter.mp (mem_of_mem_distinct hpath)).2
  · rintro front text back rfl (hagain | hcovered)
    · exact selectBy_of_covered fun _ hfinding => List.mem_flatMap.mpr ⟨text, hagain, hfinding⟩
    · exact selectBy_of_covered hcovered

end Select

/-- Two files, one of which is left out, and a directory. -/
def testedFiles : FileSystem where
  entries := [(["w"], .directory), (["w", "a.jsx"], .file "x".toUTF8), (["w", "t.jsx"], .file "y".toUTF8),
    (["w", "shut"], .directory)]
  workingDirectory := ["w"]

/-- The directory `shut` is closed to readers. -/
def testedListing (files : FileSystem) (path : Path) : Except FileSystem.Fault (List String) :=
  if path.text = "shut" then .error .missing else files.list path

theorem findings_of_isSpelling {list : FileSystem → Glob.Listing} {files : FileSystem} {text : String}
    {path : Path} (htext : Glob.isSpelling text = true)
    (hleads : Glob.leadsAlong files ⟨"."⟩ (Glob.names text) = true) (hpath : Glob.spelled text = path) :
    findings (.through list) files text = [.ok path] := by
  rw [findings, Glob.expand_of_isSpelling list htext hleads, hpath]
  rfl

theorem findings_testedFiles :
    findings (.through testedListing) testedFiles "a.jsx" = [.ok ⟨"a.jsx"⟩] ∧
      findings (.through testedListing) testedFiles "./a.jsx" = [.ok ⟨"a.jsx"⟩] ∧
      findings (.through testedListing) testedFiles "t.jsx" = [.ok ⟨"t.jsx"⟩] ∧
      findings (.through testedListing) testedFiles "shut/*" = [.error (.unreadable ⟨⟨"shut"⟩, .missing⟩)] := by
  have hparts : (Glob.Parts.ofText "shut/*").toOption =
      some ⟨⟨"."⟩, ["shut"].map Glob.literal ++ [⟨[.anyText]⟩], false⟩ := by
    decide +kernel
  have hshut : findings (.through testedListing) testedFiles "shut/*" =
      [.error (.unreadable ⟨⟨"shut"⟩, .missing⟩)] := by
    rw [findings, Glob.expand_of_list_error hparts (by decide +kernel) (by decide +kernel)
      (by decide +kernel) rfl]
    rfl
  refine ⟨findings_of_isSpelling ?_ ?_ ?_, findings_of_isSpelling ?_ ?_ ?_,
    findings_of_isSpelling ?_ ?_ ?_, hshut⟩ <;> decide +kernel

/-- The file is named in two ways, and the other one is left out. With a directory that is closed to readers
among the patterns nothing is selected, though the file has been found before. -/
theorem select_eq_wanted_twice :
    let select := selectBy (.through testedListing) testedFiles { workingDirectory := ⟨"/w"⟩ }
    (select ["a.jsx", "./a.jsx", "t.jsx"] ["t.*"]).result = .ok [(⟨"a.jsx"⟩, 1)] ∧
      (select ["a.jsx", "shut/*", "t.jsx"] []).result = .error (.unreadable ⟨⟨"shut"⟩, .missing⟩) := by
  intro select
  obtain ⟨hplain, hdotted, htest, hshut⟩ := findings_testedFiles
  constructor
  · have hcovered : findings (.through testedListing) testedFiles "./a.jsx" ⊆
        ["a.jsx"].flatMap (findings (.through testedListing) testedFiles) := by
      rw [List.flatMap_singleton, hplain, hdotted]
      exact List.Subset.refl _
    refine ((select_eq_wanted _ _ _ _ _).2.2 ["a.jsx"] "./a.jsx" ["t.jsx"] rfl (Or.inr hcovered)).trans ?_
    have hfound : (["a.jsx"] ++ ["t.jsx"]).flatMap (findings (.through testedListing) testedFiles) =
        [.ok ⟨"a.jsx"⟩, .ok ⟨"t.jsx"⟩] := by
      rw [List.flatMap_append, List.flatMap_singleton, List.flatMap_singleton, hplain, htest]
      rfl
    have hnone : failures (.through testedListing) testedFiles (["a.jsx"] ++ ["t.jsx"]) ["t.*"] = [] := by
      rw [failures, hfound]
      decide +kernel
    rw [selectBy_of_no_failure hnone, occurrences, hfound]
    exact congrArg Except.ok (by decide +kernel)
  · refine (select_eq_wanted _ _ _ _ _).1 _ ?_
    rw [failures, List.flatMap_cons, List.flatMap_cons, List.flatMap_singleton, hplain, hshut, htest]
    rfl

end BreakpointProps.Selection
