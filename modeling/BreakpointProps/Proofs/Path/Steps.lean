import BreakpointProps.FileSystem.Change
import BreakpointProps.Proofs.Path.Output

/-!
The steps along a path. They are those of its components and some that stay where they are, and a path
that is put together from components has exactly the steps of these.
-/

namespace BreakpointProps

open FileSystem (Step)

/-- The step that a component stands for. The root only says where to start. -/
def Component.step? : Component → Option Step
  | .root => none
  | .current => some .stay
  | .parent => some .up
  | .normal name => some (.down name)

namespace Path

section Steps

theorem step?_of_isName {name : String} (hname : IsName name) : step? name.toList = some (.down name) := by
  unfold step?
  split
  · exact absurd ‹_› hname.notEmpty
  · exact absurd ‹_› hname.notDot
  · exact absurd ‹_› hname.notDots
  · rw [String.ofList_toList]

theorem filter_step? (segment : List Char) :
    (step? segment).filter (· ≠ .stay) = (component? segment).bind Component.step? := by
  unfold step? component?
  split
  · rfl
  · rfl
  · rfl
  · simp_all [Component.step?]

/-- Apart from those that stay, the steps of a path are those of its components. -/
theorem filter_steps (path : Path) :
    path.steps.filter (· ≠ .stay) = (path.components.filterMap Component.step?).filter (· ≠ .stay) := by
  have hinner : path.steps.filter (· ≠ .stay) = path.inner.filterMap Component.step? := by
    rw [steps, inner, List.filter_filterMap, List.filterMap_filterMap]
    exact List.filterMap_congr fun segment _ => filter_step? segment
  have hlead : (path.lead.filterMap Component.step?).filter (· ≠ .stay) = [] := by
    rcases lead_cases path with ⟨_, h⟩ | ⟨_, h | h⟩ <;> rw [h] <;> rfl
  rw [components_eq, List.filterMap_append, List.filter_append, hlead, List.nil_append, ← hinner,
    List.filter_filter]
  simp

theorem steps_join {base path : Path} (hbase : base.text ≠ "") (hpath : path.isAbsolute = false) :
    (base.join path).steps = base.steps ++ path.steps :=
  filterMap_segments_join rfl hbase hpath

theorem steps_ofComponent {c : Component} (hname : ∀ name, c = .normal name → IsName name) :
    (ofComponent c).steps = c.step?.toList := by
  cases c with
  | root => rfl
  | current => rfl
  | parent => rfl
  | normal name =>
      have hname := hname name rfl
      simp [steps, ofComponent, segments_of_not_mem hname.noSlash, step?_of_isName hname, Component.step?]

theorem text_ofComponents_ne {components : List Component} (htrail : IsTrail components)
    (hcomponents : components ≠ []) : (ofComponents components).text ≠ "" :=
  text_ne_of_components_ne (by rwa [components_ofComponents htrail])

/-- The last component of a trail that has others before it does not start at the root. -/
theorem isAbsolute_ofComponent_of_isTrail {front : List Component} {c : Component}
    (htrail : IsTrail (front ++ [c])) (hfront : front ≠ []) : (ofComponent c).isAbsolute = false := by
  have hlate : c ≠ .root := by
    refine (htrail.noLateStart c ?_).1
    rw [List.tail_append_of_ne_nil hfront]
    exact List.mem_append_right _ List.mem_cons_self
  have hname := components_ofComponent (c := c) fun name hname => htrail.names name (by simp [hname])
  rw [← Bool.not_eq_true, ← root_mem_components_iff, hname]
  simpa using hlate.symm

theorem isTrail_front {front : List Component} {c : Component} (htrail : IsTrail (front ++ [c])) :
    IsTrail front :=
  isTrail_of_sublist htrail (List.sublist_append_left front [c])

theorem steps_ofComponents {components : List Component} (htrail : IsTrail components) :
    (ofComponents components).steps = components.filterMap Component.step? := by
  induction components using List.reverseRecOn with
  | nil => rfl
  | append_singleton front c ih =>
      have hc := steps_ofComponent (c := c) fun name hname => htrail.names name (by simp [hname])
      have hlast : [c].filterMap Component.step? = c.step?.toList := by
        cases h : c.step? <;> simp [h]
      rw [ofComponents_append_singleton, List.filterMap_append, hlast]
      by_cases hempty : front = []
      · rw [hempty, show ofComponents [] = ⟨""⟩ from rfl, empty_join, hc]
        rfl
      · rw [steps_join (text_ofComponents_ne (isTrail_front htrail) hempty)
          (isAbsolute_ofComponent_of_isTrail htrail hempty), ih (isTrail_front htrail), hc]

theorem isAbsolute_ofComponents_iff {components : List Component} (htrail : IsTrail components) :
    (ofComponents components).isAbsolute = true ↔ .root ∈ components := by
  rw [← root_mem_components_iff, components_ofComponents htrail]

end Steps

section Temporary

open FileSystem (temporary)

/-- The steps to a path and to what is written before it differ in the last one only. -/
theorem exists_steps_temporary (path : Path) :
    ∃ (front : List Step) (last : List Char), (last = [] → path.text = "" ∨ path.endsInSlash = true) ∧
      path.steps = front ++ (step? last).toList ∧
      (temporary path).steps = front ++ [.down (String.ofList (last ++ ".tmp".toList))] := by
  obtain ⟨front, last, hsegments, happend⟩ := exists_segments_append path.text.toList
  refine ⟨front.filterMap step?, last, ?_, ?_, ?_⟩
  · rintro rfl
    simpa [endsInSlash] using getLast?_of_segments hsegments
  · cases hlast : step? last <;> simp [steps, hsegments, hlast]
  · have hlast : step? (last ++ ".tmp".toList) = some (.down (String.ofList (last ++ ".tmp".toList))) := by
      have hlength : ∀ text, last ++ ".tmp".toList = text → 2 < text.length := by
        rintro _ rfl
        simp
      unfold step?
      split <;> rename_i htext
      · exact absurd (hlength _ htext) (by decide)
      · exact absurd (hlength _ htext) (by decide)
      · exact absurd (hlength _ htext) (by decide)
      · rfl
    rw [temporary, extended, steps, String.toList_append, happend _ (by decide), List.filterMap_append]
    simp only [List.filterMap_cons, List.filterMap_nil, hlast]

theorem endsInSlash_temporary (path : Path) : (temporary path).endsInSlash = false := by
  simp [endsInSlash, temporary, extended]

theorem isAbsolute_temporary (path : Path) : (temporary path).isAbsolute = path.isAbsolute := by
  unfold isAbsolute temporary extended
  rw [String.toList_append]
  cases path.text.toList <;> rfl

end Temporary

section EndsIn

open FileSystem (temporary)

/-- Is the last step of a path to a name, in its components and in its text? -/
structure EndsIn (path : Path) (name : String) : Prop where
  components : path.components = path.components.dropLast ++ [.normal name]
  steps : path.steps = path.steps.dropLast ++ [.down name]
  temporary : (temporary path).steps = path.steps.dropLast ++ [.down (name ++ ".tmp")]
  slash : path.endsInSlash = false

theorem steps_join_names {directory : Path} {names : List String} (hnames : ∀ n ∈ names, IsName n) :
    (directory.join (ofComponents (names.map .normal))).steps = directory.steps ++ names.map .down := by
  have hsteps : (ofComponents (names.map .normal)).steps = names.map .down := by
    rw [steps_ofComponents (isTrail_names hnames), List.filterMap_map]
    exact congrFun (List.filterMap_eq_map (f := Step.down)) names
  by_cases hempty : directory.text = ""
  · rw [show directory = ⟨""⟩ from congrArg Path.mk hempty, empty_join, hsteps]
    rfl
  · rw [steps_join hempty (isAbsolute_ofComponents_names hnames), hsteps]

theorem endsInSlash_join {base path : Path} (hpath : path.text ≠ "") :
    (base.join path).endsInSlash = path.endsInSlash := by
  have hlast : ∀ front : List Char, (front ++ path.text.toList).getLast? = path.text.toList.getLast? :=
    fun front => List.getLast?_append_of_ne_nil front (by simpa using hpath)
  unfold join endsInSlash
  split
  · rfl
  · split
    · rw [String.toList_append, hlast]
    · rw [String.toList_append, hlast]

/-- A path that ends in names ends in the last one of them. -/
theorem endsIn_join_names {directory : Path} {front : List String} {name : String}
    (hnames : ∀ n ∈ front ++ [name], IsName n) :
    EndsIn (directory.join (ofComponents ((front ++ [name]).map .normal))) name := by
  have htmp : IsEnding ".tmp" := ⟨by decide, by decide⟩
  have hname := hnames name (by simp)
  have hlast : (ofComponent (.normal name)).endsInSlash = false := by
    unfold endsInSlash ofComponent
    rw [beq_eq_false_iff_ne]
    exact fun h => hname.noSlash (List.mem_of_getLast? h)
  have hempty : (ofComponent (.normal name)).text ≠ "" := by simpa [ofComponent] using hname.notEmpty
  refine ⟨?_, ?_, ?_, ?_⟩
  · rw [components_join_names hnames, List.map_append, List.map_singleton, ← List.append_assoc,
      List.dropLast_concat]
  · rw [steps_join_names hnames, List.map_append, List.map_singleton, ← List.append_assoc,
      List.dropLast_concat]
  · have hending : withEnding (front ++ [name]) ".tmp" = front ++ [name ++ ".tmp"] := by
      simp [withEnding]
    rw [temporary, extended_join_names htmp, steps_join_names fun n hn =>
      isName_of_mem_withEnding hnames htmp hn, steps_join_names hnames, hending]
    simp [← List.append_assoc]
  · have htext : (ofComponents ((front ++ [name]).map .normal)).text ≠ "" :=
      text_ofComponents_ne (isTrail_names hnames) (by simp)
    rw [endsInSlash_join htext, List.map_append, List.map_singleton, ofComponents_append_singleton,
      endsInSlash_join hempty, hlast]

variable {path : Path} {name : String}

theorem EndsIn.text_ne (hends : EndsIn path name) : path.text ≠ "" :=
  text_ne_of_components_ne (by rw [hends.components]; simp)

theorem EndsIn.parent? (hends : EndsIn path name) :
    path.parent? = some (ofComponents path.components.dropLast) := by
  have hlast : path.components.getLast? = some (.normal name) := by
    rw [hends.components, List.getLast?_concat]
  rw [Path.parent?, hlast]

theorem isTrail_dropLast (path : Path) : IsTrail path.components.dropLast :=
  isTrail_of_sublist (isTrail_components path) (List.dropLast_sublist _)

/-- The steps to what a path stands in are those before its last one, apart from those that stay. -/
theorem EndsIn.filter_steps (hends : EndsIn path name) :
    (ofComponents path.components.dropLast).steps.filter (· ≠ .stay) =
      path.steps.dropLast.filter (· ≠ .stay) := by
  have hall := Path.filter_steps path
  rw [hends.steps, hends.components, List.filterMap_append, List.filter_append, List.filter_append] at hall
  rw [steps_ofComponents (isTrail_dropLast path)]
  exact (List.append_cancel_right hall).symm

end EndsIn

section Fault

open FileSystem (pathFault?)

theorem pathFault?_of_prefix {text more : String} (hwhole : pathFault? ⟨text ++ more⟩ = none)
    (htext : text ≠ "") : pathFault? ⟨text⟩ = none := by
  unfold pathFault? at *
  dsimp only at *
  split at hwhole
  · exact absurd hwhole nofun
  · split at hwhole
    · exact absurd hwhole nofun
    · split at hwhole
      · exact absurd hwhole nofun
      · rename_i hnul _ hlong
        rw [if_neg fun h => hnul ?_, if_neg (by simpa using htext), if_neg fun h => hlong ?_]
        · rw [String.utf8ByteSize_append]
          exact Nat.lt_add_right _ h
        · simp only [String.toList_append, List.contains_append, h, Bool.true_or]

theorem pathFault?_of_join {base path : Path} (hjoin : pathFault? (base.join path) = none)
    (hbase : base.text ≠ "") (hpath : path.isAbsolute = false) : pathFault? base = none := by
  unfold join at hjoin
  rw [hpath, if_neg Bool.false_ne_true] at hjoin
  split at hjoin
  · exact pathFault?_of_prefix hjoin hbase
  · rw [String.append_assoc] at hjoin
    exact pathFault?_of_prefix hjoin hbase

end Fault

end Path

end BreakpointProps
