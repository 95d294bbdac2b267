import Mathlib.Data.List.TakeDrop
import Mathlib.Data.List.TakeWhile
import BreakpointProps.Proofs.Path.Components
import BreakpointProps.Rewrite.Module

/-!
The parts of the name of a module: its path, the query or fragment behind it, and the extension, which is in
the last segment of the path.
-/

namespace BreakpointProps

namespace Path

/-- The extension of a name is what follows its last dot, which must not be the first character. -/
theorem extensionOfName?_eq_some_iff {name extension : String} :
    extensionOfName? name = some extension ↔
      ∃ front, front ≠ [] ∧ name.toList = front ++ '.' :: extension.toList ∧ '.' ∉ extension.toList := by
  rw [extensionOfName?, List.span_eq_takeWhile_dropWhile]
  dsimp only
  have hname : name.toList.reverse.takeWhile (· != '.') ++ name.toList.reverse.dropWhile (· != '.') =
      name.toList.reverse := List.takeWhile_append_dropWhile
  constructor
  · intro hextension
    split at hextension
    · cases hextension
    · rename_i hlong
      obtain rfl := Option.some.inj hextension
      cases hbefore : name.toList.reverse.dropWhile (· != '.') with
      | nil => exact absurd (by simp [hbefore]) hlong
      | cons dot before =>
          have hdot : dot = '.' := by
            have hhead := List.head?_dropWhile_not (· != '.') name.toList.reverse
            simpa [hbefore] using hhead
          rw [hbefore, hdot] at hname
          refine ⟨before.reverse, ?_, ?_, ?_⟩
          · intro hnil
            exact hlong (by simp [hbefore, List.reverse_eq_nil_iff.mp hnil])
          · have hwhole := congrArg List.reverse hname
            rw [List.reverse_reverse, List.reverse_append, List.reverse_cons, List.append_assoc,
              List.singleton_append] at hwhole
            rw [String.toList_ofList]
            exact hwhole.symm
          · rw [String.toList_ofList, List.mem_reverse]
            intro hmem
            simpa using List.mem_takeWhile_imp hmem
  · rintro ⟨front, hfront, hparts, hdots⟩
    have hreverse : name.toList.reverse = extension.toList.reverse ++ '.' :: front.reverse := by
      rw [hparts]
      simp
    have hplain : ∀ c ∈ extension.toList.reverse, (c != '.') = true := by
      intro c hc
      rw [bne_iff_ne]
      rintro rfl
      exact hdots (List.mem_reverse.mp hc)
    rw [hreverse, List.takeWhile_append_of_pos hplain, List.dropWhile_append_of_pos hplain]
    have hlong : ¬ front.reverse.length + 1 ≤ 1 := by
      simpa using hfront
    simp [hfront]

/-- The extension of a path is in its last segment if that is a name. -/
theorem extension?_of_segments {path : Path} {front : List (List Char)} {last : List Char}
    (hsegments : segments path.text.toList = front ++ [last]) (hempty : last ≠ []) (hdot : last ≠ ['.']) :
    path.extension? = if last = ['.', '.'] then none else extensionOfName? (String.ofList last) := by
  have hlast : ∃ c, component? last = some c ∧ path.components.getLast? = some c := by
    have hsome : component? last ≠ none := by
      unfold component?
      split
      · simp_all
      · split <;> simp
    obtain ⟨c, hc⟩ := Option.ne_none_iff_exists'.mp hsome
    refine ⟨c, hc, ?_⟩
    rw [components_eq, inner, hsegments, List.filterMap_append, List.filterMap_cons_some hc, List.filterMap_nil,
      ← List.append_assoc, List.getLast?_concat]
  obtain ⟨c, hc, hgetLast⟩ := hlast
  rw [extension?, fileName?, hgetLast]
  unfold component? at hc
  split at hc
  · cases hc
  · split at hc
    · rename_i hdots
      obtain rfl := Option.some.inj hc
      rw [if_pos (by simpa using hdots)]
      rfl
    · rename_i hdots
      obtain rfl := Option.some.inj hc
      rw [beq_iff_eq] at hdots
      have hname : (String.ofList last == "..") = false := by
        rw [beq_eq_false_iff_ne]
        intro hsame
        exact hdots (by simpa using congrArg String.toList hsame)
      rw [if_neg hdots, Option.bind_some, hname]
      rfl

/-- The last segment of a text is what stands behind its last slash. -/
theorem exists_append_getLast_segments (text : List Char) :
    ∃ before, text = before ++ (segments text).getLast (segments_ne_nil text) ∧
      (before = [] ∨ before.getLast? = some '/') := by
  by_cases hslash : '/' ∈ text
  · obtain ⟨after, before, htext, hafter⟩ := List.eq_append_cons_of_mem (List.mem_reverse.mpr hslash)
    have hsplit : text = before.reverse ++ '/' :: after.reverse := by
      simpa using congrArg List.reverse htext
    have hbehind : '/' ∉ after.reverse := by simpa using hafter
    have hlast : (segments text).getLast (segments_ne_nil text) = after.reverse := by
      have hsegments : segments text = segments before.reverse ++ [after.reverse] := by
        rw [hsplit, segments_append_slash, segments_of_not_mem hbehind]
      simp [hsegments]
    rw [hlast]
    exact ⟨before.reverse ++ ['/'], by rw [List.append_assoc]; exact hsplit, Or.inr List.getLast?_concat⟩
  · refine ⟨[], ?_, Or.inl rfl⟩
    simp [segments_of_not_mem hslash]

/-- A text without a slash ends a path exactly if it ends its last segment. -/
theorem suffix_iff_suffix_getLast_segments {ending text : List Char} (hending : '/' ∉ ending) :
    ending <:+ text ↔ ending <:+ (segments text).getLast (segments_ne_nil text) := by
  obtain ⟨before, htext, hbefore⟩ := exists_append_getLast_segments text
  have hlast : (segments text).getLast (segments_ne_nil text) <:+ text := ⟨before, htext.symm⟩
  refine ⟨fun hsuffix => ?_, fun hsuffix => hsuffix.trans hlast⟩
  rcases List.suffix_or_suffix_of_suffix hsuffix hlast with hshort | ⟨front, hfront⟩
  · exact hshort
  · -- A longer ending would hold the slash before the last segment.
    obtain ⟨first, hfirst⟩ := hsuffix
    have hsplit : first ++ front = before := by
      rw [← hfront, ← List.append_assoc] at hfirst
      exact List.append_cancel_right (hfirst.trans htext)
    rcases List.eq_nil_or_concat front with rfl | ⟨more, c, rfl⟩
    · rw [← hfront]
      exact List.suffix_rfl
    · rw [List.concat_eq_append, ← List.append_assoc] at hsplit
      rcases hbefore with rfl | hslash
      · exact absurd hsplit (by simp)
      · rw [← hsplit, List.getLast?_concat] at hslash
        obtain rfl := Option.some.inj hslash
        exact absurd (by simp [← hfront]) hending

end Path

namespace ModuleId

/-- What stands behind the path in the name of a module. -/
def query (id : String) : List Char := id.toList.dropWhile fun c => c != '?' && c != '#'

theorem toList_path_append_query (id : String) : (path id).text.toList ++ query id = id.toList := by
  rw [path, query, String.toList_ofList]
  exact List.takeWhile_append_dropWhile

theorem ne_of_mem_path {id : String} {c : Char} (hc : c ∈ (path id).text.toList) : c ≠ '?' ∧ c ≠ '#' := by
  rw [path, String.toList_ofList] at hc
  simpa using List.mem_takeWhile_imp hc

theorem eq_of_query_eq_cons {id : String} {c : Char} {rest : List Char} (hquery : query id = c :: rest) :
    c = '?' ∨ c = '#' := by
  have hhead := List.head?_dropWhile_not (fun c => c != '?' && c != '#') id.toList
  rw [← query, hquery] at hhead
  simpa [or_iff_not_imp_left] using hhead

/-- The last segment of the path in the name of a module. -/
def lastSegment (id : String) : List Char :=
  (Path.segments (path id).text.toList).getLast (Path.segments_ne_nil _)

/-- Where the last segment can be a name, a module is looked at if that has an extension that is accepted. -/
theorem isSupported_iff {config : Config} {id : String} (hextensions : "" ∉ config.extensions)
    (hempty : lastSegment id ≠ []) (hdot : lastSegment id ≠ ['.']) :
    isSupported config id = true ↔
      ∃ extension ∈ config.extensions, '.' ∉ extension.toList ∧
        ∃ front, front ≠ [] ∧ lastSegment id = front ++ '.' :: extension.toList := by
  have hsegments := (List.dropLast_append_getLast (Path.segments_ne_nil (path id).text.toList)).symm
  rw [isSupported, extension?, Path.extension?_of_segments hsegments hempty hdot, ← lastSegment,
    Option.any_eq_true]
  constructor
  · rintro ⟨extension, hextension, haccepted⟩
    split at hextension
    · cases hextension
    · obtain ⟨front, hfront, hparts, hdots⟩ := Path.extensionOfName?_eq_some_iff.mp hextension
      rw [String.toList_ofList] at hparts
      exact ⟨extension, by simpa [Config.acceptsExtension] using haccepted, hdots, front, hfront, hparts⟩
  · rintro ⟨extension, haccepted, hdots, front, hfront, hparts⟩
    have hparent : lastSegment id ≠ ['.', '.'] := by
      intro hparent
      have hlength := congrArg List.length (hparts.symm.trans hparent)
      have hfrontLength := List.length_pos_of_ne_nil hfront
      simp only [List.length_append, List.length_cons, List.length_nil] at hlength
      have hnil : extension.toList = [] := List.length_eq_zero_iff.mp (by omega)
      exact hextensions (String.toList_eq_nil_iff.mp hnil ▸ haccepted)
    refine ⟨extension, ?_, by simpa [Config.acceptsExtension] using haccepted⟩
    rw [if_neg hparent, Path.extensionOfName?_eq_some_iff]
    exact ⟨front, hfront, by rw [String.toList_ofList, hparts], hdots⟩

end ModuleId

end BreakpointProps
