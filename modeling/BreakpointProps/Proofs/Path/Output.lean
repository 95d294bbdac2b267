import BreakpointProps.Path
import BreakpointProps.Proofs.Path.Components

/-!
Where results go. The path of a result consists of the directory for results and the names on the way to
the input, and what stands beside it differs in the last name only. So two results are in one place
exactly if the names are the same, and resolving such a path keeps it below its directory.
-/

namespace BreakpointProps

/-- The name that a component is. -/
def Component.name? : Component → Option String
  | .normal name => some name
  | _ => none

namespace Path

section Names

/-- What is left of the way to an input behind the working directory, if the way starts there. -/
def remainder (input workingDirectory : Path) : List Component :=
  input.components.drop
    (if input.startsWith workingDirectory then workingDirectory.components.length else 0)

/-- The names under which the result for an input goes. -/
def outputNames (input workingDirectory : Path) : List String :=
  (input.remainder workingDirectory).filterMap Component.name?

/-- Names with more text behind the last of them. -/
def withEnding (names : List String) (ending : String) : List String :=
  names.dropLast ++ [names.getLastD "" ++ ending]

theorem filter_isName (components : List Component) :
    components.filter Component.isName = (components.filterMap Component.name?).map .normal := by
  induction components with
  | nil => rfl
  | cons c rest ih =>
      cases c <;> simp [List.filter_cons, List.filterMap_cons, Component.isName, Component.name?, ih]

theorem outputFor_eq (input directory workingDirectory : Path) :
    input.outputFor directory workingDirectory =
      directory.join (ofComponents ((input.outputNames workingDirectory).map .normal)) := by
  rw [outputNames, ← filter_isName]
  rfl

theorem isName_of_mem_outputNames {input workingDirectory : Path} {name : String}
    (hname : name ∈ input.outputNames workingDirectory) : IsName name := by
  obtain ⟨c, hmem, hc⟩ := List.mem_filterMap.mp hname
  cases c with
  | normal found =>
      obtain rfl := Option.some.inj hc
      exact (isTrail_components input).names found (List.mem_of_mem_drop hmem)
  | _ => simp [Component.name?] at hc

/-- An ending that does not turn a name into something else. -/
structure IsEnding (ending : String) : Prop where
  noSlash : '/' ∉ ending.toList
  long : 2 < ending.toList.length

theorem isName_append {name ending : String} (hname : '/' ∉ name.toList) (hending : IsEnding ending) :
    IsName (name ++ ending) := by
  have hlength : 2 < (name ++ ending).toList.length := by
    rw [String.toList_append, List.length_append]
    exact Nat.lt_add_left _ hending.long
  refine ⟨?_, ?_, ?_, ?_⟩
  · rw [String.toList_append, List.mem_append, not_or]
    exact ⟨hname, hending.noSlash⟩
  all_goals
    intro hdots
    rw [hdots] at hlength
    simp at hlength

theorem isName_of_mem_withEnding {names : List String} {ending name : String}
    (hnames : ∀ n ∈ names, IsName n) (hending : IsEnding ending)
    (hname : name ∈ withEnding names ending) : IsName name := by
  rcases List.mem_append.mp hname with hfront | hlast
  · exact hnames name (List.dropLast_subset names hfront)
  · obtain rfl := List.mem_singleton.mp hlast
    refine isName_append ?_ hending
    cases hempty : names.getLast? with
    | none => simp [List.getLastD_eq_getLast?, hempty]
    | some last =>
        rw [List.getLastD_eq_getLast?, hempty]
        exact (hnames last (List.mem_of_getLast? hempty)).noSlash

theorem extended_ofComponents {names : List String} {ending : String} (hending : IsEnding ending) :
    (ofComponents (names.map .normal)).extended ending =
      ofComponents ((withEnding names ending).map .normal) := by
  have hhead : ending.toList.head? ≠ some '/' := fun hhead =>
    hending.noSlash (List.mem_of_head? hhead)
  rcases List.eq_nil_or_concat names with rfl | ⟨front, last, rfl⟩
  · simp [withEnding, ofComponents, extended, empty_join, ofComponent]
  · rw [List.concat_eq_append, List.map_append, List.map_singleton, ofComponents_append_singleton,
      extended_join hhead]
    simp [withEnding, ofComponents_append_singleton, extended, ofComponent]

end Names

section Behind

variable {directory : Path} {names : List String}

theorem isTrail_names (hnames : ∀ n ∈ names, IsName n) : IsTrail (names.map .normal) := by
  constructor
  · intro name hname
    obtain ⟨found, hmem, hfound⟩ := List.mem_map.mp hname
    exact Component.normal.inj hfound ▸ hnames found hmem
  · intro c hc
    obtain ⟨found, _, rfl⟩ := List.mem_map.mp (List.mem_of_mem_tail hc)
    simp

theorem filter_names (names : List String) :
    (names.map Component.normal).filter (· ≠ .current) = names.map .normal := by
  apply List.filter_eq_self.mpr
  intro c hc
  obtain ⟨name, _, rfl⟩ := List.mem_map.mp hc
  simp

theorem isAbsolute_ofComponents_names (hnames : ∀ n ∈ names, IsName n) :
    (ofComponents (names.map .normal)).isAbsolute = false := by
  rw [← Bool.not_eq_true, ← root_mem_components_iff, components_ofComponents (isTrail_names hnames)]
  simp

/-- Names go behind the components of a directory. -/
theorem components_join_names (hnames : ∀ n ∈ names, IsName n) :
    (directory.join (ofComponents (names.map .normal))).components =
      directory.components ++ names.map .normal := by
  by_cases hempty : directory.text = ""
  · rw [show directory = ⟨""⟩ from congrArg Path.mk hempty, empty_join,
      components_ofComponents (isTrail_names hnames)]
    rfl
  · rw [components_join hempty (isAbsolute_ofComponents_names hnames),
      components_ofComponents (isTrail_names hnames), filter_names]

theorem extended_join_names {ending : String} (hending : IsEnding ending) :
    (directory.join (ofComponents (names.map .normal))).extended ending =
      directory.join (ofComponents ((withEnding names ending).map .normal)) := by
  rw [extended_join fun hhead => hending.noSlash (List.mem_of_head? hhead),
    extended_ofComponents hending]

/-- Does a path consist of a directory and names behind it? -/
def IsBehind (directory path : Path) : Prop :=
  ∃ names : List String, (∀ n ∈ names, IsName n) ∧
    path = directory.join (ofComponents (names.map .normal))

theorem isBehind_outputFor (input directory workingDirectory : Path) :
    IsBehind directory (input.outputFor directory workingDirectory) :=
  ⟨_, fun _ hn => isName_of_mem_outputNames hn, outputFor_eq input directory workingDirectory⟩

theorem IsBehind.extended {path : Path} {ending : String} (hpath : IsBehind directory path)
    (hending : IsEnding ending) : IsBehind directory (path.extended ending) := by
  obtain ⟨names, hnames, rfl⟩ := hpath
  exact ⟨withEnding names ending, fun n hn => isName_of_mem_withEnding hnames hending hn,
    extended_join_names hending⟩

end Behind

section Resolved

theorem sublist_foldl_follow (done components : List Component) :
    (components.foldl follow done).Sublist (done ++ components) := by
  induction components generalizing done with
  | nil => simp
  | cons c rest ih =>
      have hfollow : (follow done c).Sublist (done ++ [c]) := by
        cases c with
        | current => exact List.sublist_append_left done _
        | parent =>
            rw [follow]
            split
            · exact List.sublist_append_left done _
            · exact (List.dropLast_sublist done).trans (List.sublist_append_left done _)
        | root => exact List.Sublist.refl _
        | normal name => exact List.Sublist.refl _
      have hrest := ih (follow done c)
      rw [List.append_cons]
      exact hrest.trans (hfollow.append (List.Sublist.refl rest))

theorem components_lexicalAbsolute (path base : Path) :
    (path.lexicalAbsolute base).components = resolved (base.join path).components :=
  components_ofComponents (isTrail_of_sublist (isTrail_components _) (sublist_foldl_follow [] _))

theorem resolved_append_names (components : List Component) (names : List String) :
    resolved (components ++ names.map .normal) = resolved components ++ names.map .normal := by
  rw [resolved, List.foldl_append]
  change (names.map Component.normal).foldl follow (resolved components) = _
  generalize resolved components = done
  induction names generalizing done with
  | nil => simp
  | cons name rest ih =>
      rw [List.map_cons, List.foldl_cons, ih]
      simp [follow]

/-- Names behind a directory stay behind it when the path is resolved. -/
theorem lexicalAbsolute_join_names {directory base : Path} {names : List String} (hbase : base.text ≠ "")
    (hdirectory : directory.isAbsolute = false) (hnames : ∀ n ∈ names, IsName n) :
    ((directory.join (ofComponents (names.map .normal))).lexicalAbsolute base).components =
      (directory.lexicalAbsolute base).components ++ names.map .normal := by
  have hrelative : (directory.join (ofComponents (names.map .normal))).isAbsolute = false := by
    rw [isAbsolute_join, isAbsolute_ofComponents_names hnames, hdirectory, Bool.or_self]
  rw [components_lexicalAbsolute, components_lexicalAbsolute, components_join hbase hrelative,
    components_join hbase hdirectory, components_join_names hnames, List.filter_append, filter_names,
    ← List.append_assoc, resolved_append_names]

end Resolved

end Path

end BreakpointProps
