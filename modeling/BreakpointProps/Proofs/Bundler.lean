import Mathlib.Data.List.Infix
import BreakpointProps.Bundler
import BreakpointProps.Proofs.ModuleId
import BreakpointProps.Proofs.Text.Regex

/-!
The filter on the names of modules against the test that the rewriting makes itself. The filter looks for an
extension at the end of the name or before a query, the test for the extension of the path: where they differ,
and that they agree on all other names.
-/

namespace BreakpointProps.Bundler

open ModuleId (query lastSegment isSupported)

variable {config : Config} {extension : String} {text : List Char}

section Ending

/-- Is a text a query or a fragment in one line, or nothing? -/
def IsQuery (text : List Char) : Prop := '\n' ∉ text ∧ text.head? ∈ [none, some '?', some '#']

/-- Does an extension end a text, perhaps with a query or a fragment behind it? -/
def HasEnding (extension : String) (text : List Char) : Prop :=
  ∃ before rest, text = before ++ '.' :: extension.toList ++ rest ∧ IsQuery rest

instance : DecidablePred IsQuery := fun text =>
  inferInstanceAs (Decidable ('\n' ∉ text ∧ text.head? ∈ [none, some '?', some '#']))

theorem hasEnding_iff_exists_tail :
    HasEnding extension text ↔
      ∃ tail ∈ text.tails, '.' :: extension.toList <+: tail ∧ IsQuery (tail.drop (extension.toList.length + 1)) := by
  have hdrop : ∀ rest, ('.' :: extension.toList ++ rest).drop (extension.toList.length + 1) = rest :=
    fun rest => List.drop_left' rfl
  constructor
  · rintro ⟨before, rest, rfl, hrest⟩
    refine ⟨'.' :: extension.toList ++ rest, ?_, List.prefix_append _ _, by rwa [hdrop]⟩
    rw [List.mem_tails, List.append_assoc]
    exact List.suffix_append _ _
  · rintro ⟨tail, htail, ⟨rest, rfl⟩, hrest⟩
    obtain ⟨before, rfl⟩ := (List.mem_tails _ _).mp htail
    rw [hdrop] at hrest
    exact ⟨before, rest, (List.append_assoc ..).symm, hrest⟩

instance : Decidable (HasEnding extension text) := decidable_of_iff' _ hasEnding_iff_exists_tail

theorem isQuery_nil : IsQuery [] := by decide

theorem isQuery_cons_iff {c : Char} : IsQuery (c :: text) ↔ (c = '?' ∨ c = '#') ∧ '\n' ∉ text := by
  have hmark : (c :: text).head? ∈ [none, some '?', some '#'] ↔ c = '?' ∨ c = '#' := by simp
  rw [IsQuery, hmark, List.mem_cons, not_or, and_comm, ← and_assoc]
  refine and_congr_left fun _ => and_iff_left_of_imp ?_
  rintro (rfl | rfl) <;> decide

theorem matches_query_iff :
    (Text.Pattern.optional (.append (.oneOf ['?', '#']) .withinLine)).Matches text ↔ IsQuery text := by
  cases text with
  | nil => exact iff_of_true (Or.inl rfl) isQuery_nil
  | cons c rest =>
      rw [isQuery_cons_iff]
      constructor
      · rintro (hnil | ⟨_, line, hsplit, ⟨mark, hmark, rfl⟩, hline⟩)
        · cases hnil
        · obtain ⟨rfl, rfl⟩ := List.cons.inj hsplit
          exact ⟨by simpa using hmark, hline⟩
      · rintro ⟨hmark, hline⟩
        exact Or.inr ⟨[c], rest, rfl, ⟨c, by simpa using hmark, rfl⟩, hline⟩

/-- The pattern looks for an extension that ends a name. -/
theorem matchesAtEnd_idPattern_iff :
    (idPattern config).MatchesAtEnd text ↔ ∃ extension ∈ config.extensions, HasEnding extension text := by
  constructor
  · rintro ⟨before, _, rfl, _, _, rfl, rfl, _, rest, rfl, hchoice, hrest⟩
    obtain ⟨extension, hextension, rfl⟩ := List.mem_map.mp hchoice
    exact ⟨extension, hextension, before, rest, by simp, matches_query_iff.mp hrest⟩
  · rintro ⟨extension, hextension, before, rest, rfl, hrest⟩
    refine ⟨before, '.' :: extension.toList ++ rest, by simp, ['.'], _, rfl, rfl, extension.toList, rest, rfl,
      List.mem_map_of_mem hextension, matches_query_iff.mpr hrest⟩

/-- It can be written for every accepted configuration. -/
theorem isWritable_idPattern (hextensions : config.extensions ≠ []) : (idPattern config).IsWritable :=
  ⟨trivial, by simpa [Text.Pattern.IsWritable] using hextensions,
    ⟨by simp, by simp [Text.Regex.Reader.isSpecialMember]⟩, trivial⟩

end Ending

section Name

variable {id : String}

/-- Can an extension be that of a path in the name of a module? -/
def IsPlain (extension : String) : Prop := ∀ c ∈ extension.toList, c ∉ ['.', '/', '?', '#']

theorem isQuery_query (hline : '\n' ∉ query id) : IsQuery (query id) := by
  cases hquery : query id with
  | nil => exact isQuery_nil
  | cons c rest =>
      rw [hquery, List.mem_cons, not_or] at hline
      exact isQuery_cons_iff.mpr ⟨ModuleId.eq_of_query_eq_cons hquery, hline.2⟩

theorem hasEnding_of_suffix (hsuffix : '.' :: extension.toList <:+ (ModuleId.path id).text.toList)
    (hline : '\n' ∉ query id) : HasEnding extension id.toList := by
  obtain ⟨before, hbefore⟩ := hsuffix
  refine ⟨before, query id, ?_, isQuery_query hline⟩
  rw [hbefore, ModuleId.toList_path_append_query]

theorem hasEnding_of_query (hquery : HasEnding extension (query id)) : HasEnding extension id.toList := by
  obtain ⟨before, rest, hsplit, hrest⟩ := hquery
  refine ⟨(ModuleId.path id).text.toList ++ before, rest, ?_, hrest⟩
  rw [← ModuleId.toList_path_append_query, hsplit]
  simp

/-- An extension that a path can have ends a name at the end of its path or in its query. -/
theorem hasEnding_iff (hplain : IsPlain extension) :
    HasEnding extension id.toList ↔
      '.' :: extension.toList <:+ (ModuleId.path id).text.toList ∧ '\n' ∉ query id ∨
        HasEnding extension (query id) := by
  constructor
  · rintro ⟨before, rest, hsplit, hrest⟩
    rw [← ModuleId.toList_path_append_query, List.append_eq_append_iff] at hsplit
    rcases hsplit with ⟨extra, hfound, hquery⟩ | ⟨extra, hpath, hextra⟩
    · cases extra with
      | nil =>
          refine Or.inl ⟨⟨before, hfound.trans (List.append_nil _)⟩, ?_⟩
          rw [hquery]
          exact hrest.1
      | cons mark extra =>
          -- The extension holds no mark, so it stands behind the one that starts the query.
          have hmark : mark = '?' ∨ mark = '#' := ModuleId.eq_of_query_eq_cons hquery
          rcases List.append_eq_append_iff.mp hfound with ⟨middle, _, hextension⟩ | ⟨middle, _, hmiddle⟩
          · have hmem : mark ∈ '.' :: extension.toList := by simp [hextension]
            rcases List.mem_cons.mp hmem with rfl | hmem
            · simp at hmark
            · exact absurd (by simpa using Or.inr (Or.inr hmark)) (hplain mark hmem)
          · refine Or.inr ⟨middle, rest, ?_, hrest⟩
            rw [hquery, hmiddle]
    · cases extra with
      | nil =>
          refine Or.inl ⟨⟨before, by rw [hpath, List.append_nil]⟩, ?_⟩
          rw [← List.nil_append (query id), ← hextra]
          exact hrest.1
      | cons mark extra =>
          have hmark : mark = '?' ∨ mark = '#' := (isQuery_cons_iff.mp (hextra ▸ hrest)).1
          have hmem : mark ∈ (ModuleId.path id).text.toList := by simp [hpath]
          obtain ⟨hquestion, hhash⟩ := ModuleId.ne_of_mem_path hmem
          exact absurd hmark (by simp [hquestion, hhash])
  · rintro (⟨hsuffix, hline⟩ | hquery)
    · exact hasEnding_of_suffix hsuffix hline
    · exact hasEnding_of_query hquery

end Name

section Agreement

variable {id : String}

/-- Does the filter miss a module of this name, whatever extensions are configured? -/
def IsMissed (id : String) : Prop := '\n' ∈ query id ∨ lastSegment id = [] ∨ lastSegment id = ['.']

/-- Does the filter find an extension in a name that is not the extension of its path: one that no path can
have, one in the query, or one with nothing before it? -/
def IsMistaken (config : Config) (id : String) : Prop :=
  ∃ extension ∈ config.extensions,
    ¬ IsPlain extension ∧ HasEnding extension id.toList ∨ HasEnding extension (query id) ∨
      '\n' ∉ query id ∧ lastSegment id = '.' :: extension.toList

instance (extension : String) : Decidable (IsPlain extension) :=
  List.decidableBAll (fun c => c ∉ ['.', '/', '?', '#']) extension.toList

instance (id : String) : Decidable (IsMissed id) :=
  inferInstanceAs (Decidable ('\n' ∈ query id ∨ lastSegment id = [] ∨ lastSegment id = ['.']))

instance (config : Config) (id : String) : Decidable (IsMistaken config id) :=
  inferInstanceAs (Decidable (∃ extension ∈ config.extensions,
    ¬ IsPlain extension ∧ HasEnding extension id.toList ∨ HasEnding extension (query id) ∨
      '\n' ∉ query id ∧ lastSegment id = '.' :: extension.toList))

theorem extensions_of_flaw? (hconfig : config.flaw? = none) : config.extensions ≠ [] ∧ "" ∉ config.extensions := by
  unfold Config.flaw? at hconfig
  split at hconfig
  · cases hconfig
  · rename_i hempty
    refine ⟨by simpa using hempty, fun hmem => ?_⟩
    rw [Option.map_eq_none_iff, List.find?_eq_none] at hconfig
    exact hconfig "" hmem rfl

/-- An extension that ends the last segment of a path ends the path. -/
theorem suffix_of_lastSegment {front : List Char} (hlast : lastSegment id = front ++ '.' :: extension.toList) :
    '.' :: extension.toList <:+ (ModuleId.path id).text.toList := by
  obtain ⟨before, hpath, -⟩ := Path.exists_append_getLast_segments (ModuleId.path id).text.toList
  rw [← lastSegment, hlast, ← List.append_assoc] at hpath
  exact ⟨before ++ front, hpath.symm⟩

/-- An accepted extension that ends a name is that of its path, unless the filter is mistaken. -/
theorem isSupported_or_isMistaken (hextensions : "" ∉ config.extensions) (hmem : extension ∈ config.extensions)
    (hending : HasEnding extension id.toList) :
    isSupported config id = true ∧ ¬ IsMissed id ∨ IsMistaken config id := by
  by_cases hplain : IsPlain extension
  · rcases (hasEnding_iff hplain).mp hending with ⟨hsuffix, hline⟩ | hquery
    · have hslash : '/' ∉ '.' :: extension.toList := by
        rw [List.mem_cons, not_or]
        exact ⟨by decide, fun hslash => hplain _ hslash (by simp)⟩
      obtain ⟨front, hfront⟩ := (Path.suffix_iff_suffix_getLast_segments hslash).mp hsuffix
      have hlast : lastSegment id = front ++ '.' :: extension.toList := hfront.symm
      by_cases hbare : front = []
      · exact Or.inr ⟨extension, hmem, Or.inr (Or.inr ⟨hline, by rw [hlast, hbare, List.nil_append]⟩)⟩
      · have hempty : lastSegment id ≠ [] := by simp [hlast]
        have hdot : lastSegment id ≠ ['.'] := by
          intro hdot
          have hlength := congrArg List.length (hlast.symm.trans hdot)
          have hfrontLength := List.length_pos_of_ne_nil hbare
          simp only [List.length_append, List.length_cons, List.length_nil] at hlength
          omega
        refine Or.inl ⟨?_, by simp [IsMissed, hline, hempty, hdot]⟩
        exact (ModuleId.isSupported_iff hextensions hempty hdot).mpr
          ⟨extension, hmem, fun hdots => hplain _ hdots (by simp), front, hbare, hlast⟩
    · exact Or.inr ⟨extension, hmem, Or.inr (Or.inl hquery)⟩
  · exact Or.inr ⟨extension, hmem, Or.inl ⟨hplain, hending⟩⟩

/-- For every accepted configuration the filter is a regular expression. It finds a match in a name exactly
if the module is looked at and its name is not one that is missed, or if it is mistaken about the name: so for
all other names the filter and the test agree. -/
theorem idFilter_agrees (hconfig : config.flaw? = none) :
    ∃ filter, Text.Regex.ofText? (idFilter config) = some filter ∧
      (∀ id : String, filter.Finds id.toList ↔
        isSupported config id = true ∧ ¬ IsMissed id ∨ IsMistaken config id) ∧
      ∀ id : String, ¬ IsMissed id → ¬ IsMistaken config id →
        (filter.Finds id.toList ↔ isSupported config id = true) := by
  obtain ⟨hextensions, hempty⟩ := extensions_of_flaw? hconfig
  obtain ⟨filter, hread, hfinds⟩ := Text.Pattern.exists_regex_of_sourceAtEnd (isWritable_idPattern hextensions)
  have hiff : ∀ id : String, filter.Finds id.toList ↔
      isSupported config id = true ∧ ¬ IsMissed id ∨ IsMistaken config id := by
    intro id
    rw [hfinds, matchesAtEnd_idPattern_iff]
    constructor
    · rintro ⟨extension, hmem, hending⟩
      exact isSupported_or_isMistaken hempty hmem hending
    · rintro (⟨hsupported, hmissed⟩ | ⟨extension, hmem, ⟨_, hending⟩ | hquery | ⟨hline, hlast⟩⟩)
      · simp only [IsMissed, not_or] at hmissed
        obtain ⟨hline, hsegment, hdot⟩ := hmissed
        obtain ⟨extension, hmem, _, front, _, hlast⟩ :=
          (ModuleId.isSupported_iff hempty hsegment hdot).mp hsupported
        exact ⟨extension, hmem, hasEnding_of_suffix (suffix_of_lastSegment hlast) hline⟩
      · exact ⟨extension, hmem, hending⟩
      · exact ⟨extension, hmem, hasEnding_of_query hquery⟩
      · exact ⟨extension, hmem,
          hasEnding_of_suffix (suffix_of_lastSegment (hlast.trans (List.nil_append _).symm)) hline⟩
  refine ⟨filter, hread, hiff, fun id hmissed hmistaken => ?_⟩
  rw [hiff, or_iff_left hmistaken, and_iff_left hmissed]

theorem idFilter_agrees_standard :
    (Config.standard .production).flaw? = none ∧
      ∃ filter, Text.Regex.ofText? "\\.(jsx|tsx)(?:[?#].*)?$" = some filter ∧
        filter.Finds "src/App.tsx?v=1.2".toList ∧ ¬ filter.Finds "src/App.ts?v=3".toList := by
  have hfilter : idFilter (.standard .production) = "\\.(jsx|tsx)(?:[?#].*)?$" := by decide +kernel
  have hconfig : (Config.standard .production).flaw? = none := rfl
  obtain ⟨filter, hread, -, hagree⟩ := idFilter_agrees hconfig
  refine ⟨hconfig, filter, hfilter ▸ hread, ?_, ?_⟩
  · exact (hagree "src/App.tsx?v=1.2" (by decide +kernel) (by decide +kernel)).mpr (by decide +kernel)
  · rw [hagree "src/App.ts?v=3" (by decide +kernel) (by decide +kernel)]
    decide +kernel

/-- The filter takes an extension in a query for that of the module. -/
example :
    IsMistaken (.standard .production) "App.vue?vue&type=script&lang.tsx" ∧
      isSupported (.standard .production) "App.vue?vue&type=script&lang.tsx" = false := by
  decide +kernel

end Agreement

end BreakpointProps.Bundler
