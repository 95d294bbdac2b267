import Mathlib.Data.List.Basic
import Mathlib.Data.List.Induction
import BreakpointProps.Path

/-!
The text of a path and its components. A path that is put together from components has these
components, and putting a path behind another puts its components behind the other's.
-/

namespace BreakpointProps

/-- Can the name stand between slashes, and does it stand for itself there? -/
structure IsName (name : String) : Prop where
  noSlash : '/' ∉ name.toList
  notEmpty : name.toList ≠ []
  notDot : name.toList ≠ ['.']
  notDots : name.toList ≠ ['.', '.']

/-- Are these components in the order in which they can stand in a path? -/
structure IsTrail (components : List Component) : Prop where
  names : ∀ name, .normal name ∈ components → IsName name
  noLateStart : ∀ c ∈ components.tail, c ≠ .root ∧ c ≠ .current

namespace Path

section Segments

theorem segments_ne_nil (text : List Char) : segments text ≠ [] := by
  cases text with
  | nil => simp [segments]
  | cons c rest =>
      rw [segments]
      split
      · simp
      · split <;> simp

theorem segments_append_slash (first second : List Char) :
    segments (first ++ '/' :: second) = segments first ++ segments second := by
  induction first with
  | nil => simp [segments]
  | cons c rest ih =>
      rw [List.cons_append, segments, segments, ih]
      split
      · rfl
      · cases hsegments : segments rest with
        | nil => exact absurd hsegments (segments_ne_nil rest)
        | cons segment more => rfl

theorem segments_of_not_mem {text : List Char} (htext : '/' ∉ text) : segments text = [text] := by
  induction text with
  | nil => rfl
  | cons c rest ih =>
      have hslash : c ≠ '/' := fun hc => htext (hc ▸ List.mem_cons_self)
      rw [segments, ih fun hmem => htext (List.mem_cons_of_mem c hmem)]
      simp [hslash]

/-- Text without a slash goes behind the last segment. -/
theorem exists_segments_append (text : List Char) :
    ∃ front last, segments text = front ++ [last] ∧
      ∀ ending, '/' ∉ ending → segments (text ++ ending) = front ++ [last ++ ending] := by
  induction text with
  | nil => exact ⟨[], [], rfl, fun ending hending => segments_of_not_mem hending⟩
  | cons c rest ih =>
      obtain ⟨front, last, hsegments, happend⟩ := ih
      by_cases hslash : c = '/'
      · refine ⟨[] :: front, last, by simp [segments, hslash, hsegments], fun ending hending => ?_⟩
        simp [segments, hslash, happend ending hending]
      · cases front with
        | nil =>
            refine ⟨[], c :: last, by simp [segments, hslash, hsegments], fun ending hending => ?_⟩
            simp [segments, hslash, happend ending hending]
        | cons segment more =>
            refine ⟨(c :: segment) :: more, last, by simp [segments, hslash, hsegments],
              fun ending hending => ?_⟩
            simp [segments, hslash, happend ending hending]

/-- The last segment is empty only behind a slash. -/
theorem getLast?_of_segments {text : List Char} {front : List (List Char)}
    (hsegments : segments text = front ++ [[]]) : text = [] ∨ text.getLast? = some '/' := by
  rcases List.eq_nil_or_concat text with hempty | ⟨before, c, rfl⟩
  · exact Or.inl hempty
  · rw [List.concat_eq_append] at hsegments ⊢
    right
    rw [List.getLast?_concat]
    by_contra hslash
    obtain ⟨first, last, -, happend⟩ := exists_segments_append before
    rw [happend [c] (by simpa [eq_comm] using hslash)] at hsegments
    simp at hsegments

theorem not_mem_of_mem_segments {text segment : List Char} (hsegment : segment ∈ segments text) :
    '/' ∉ segment := by
  induction text generalizing segment with
  | nil => simp_all [segments]
  | cons c rest ih =>
      rw [segments] at hsegment
      split at hsegment
      · rcases List.mem_cons.mp hsegment with rfl | hrest
        · simp
        · exact ih hrest
      · rename_i hslash
        split at hsegment
        · rename_i hnil
          exact absurd hnil (segments_ne_nil rest)
        · rename_i first more hsegments
          rcases List.mem_cons.mp hsegment with rfl | hmore
          · rw [List.mem_cons, not_or]
            exact ⟨fun hc => hslash (by simp [← hc]), ih (hsegments ▸ List.mem_cons_self)⟩
          · exact ih (hsegments ▸ List.mem_cons_of_mem first hmore)

theorem head?_segments_append_slash (first second : List Char) :
    (segments (first ++ '/' :: second)).head? = (segments first).head? := by
  rw [segments_append_slash]
  exact List.head?_append_of_ne_nil _ (segments_ne_nil first)

end Segments

section Components

theorem component?_of_isName {name : String} (hname : IsName name) :
    component? name.toList = some (.normal name) := by
  simp [component?, hname.notEmpty, hname.notDot, hname.notDots]

theorem isName_of_component? {segment : List Char} {name : String} (hslash : '/' ∉ segment)
    (hnormal : component? segment = some (.normal name)) : IsName name := by
  unfold component? at hnormal
  split at hnormal
  · exact absurd hnormal (by simp)
  · split at hnormal
    · exact absurd hnormal (by simp)
    · rename_i hplain hdots
      obtain rfl := Component.normal.inj (Option.some.inj hnormal)
      rw [Bool.or_eq_true, not_or, List.isEmpty_iff, beq_iff_eq] at hplain
      rw [beq_iff_eq] at hdots
      exact ⟨by simpa, by simpa using hplain.1, by simpa using hplain.2, by simpa using hdots⟩

theorem component?_ne {segment : List Char} {c : Component} (hc : component? segment = some c) :
    c ≠ .root ∧ c ≠ .current := by
  unfold component? at hc
  split at hc
  · exact absurd hc (by simp)
  · split at hc <;> obtain rfl := Option.some.inj hc <;> simp

/-- The components of a path without what only tells where it starts. -/
def inner (path : Path) : List Component := (segments path.text.toList).filterMap component?

/-- What tells where a path starts. -/
def lead (path : Path) : List Component :=
  if path.isAbsolute then [.root]
  else if (segments path.text.toList).head? == some ['.'] then [.current] else []

theorem components_eq (path : Path) : path.components = path.lead ++ path.inner := rfl

theorem ne_of_mem_inner {path : Path} {c : Component} (hc : c ∈ path.inner) :
    c ≠ .root ∧ c ≠ .current := by
  obtain ⟨segment, _, hsegment⟩ := List.mem_filterMap.mp hc
  exact component?_ne hsegment

theorem isName_of_mem_inner {path : Path} {name : String} (hname : .normal name ∈ path.inner) :
    IsName name := by
  obtain ⟨segment, hmem, hsegment⟩ := List.mem_filterMap.mp hname
  exact isName_of_component? (not_mem_of_mem_segments hmem) hsegment

theorem lead_cases (path : Path) :
    (path.isAbsolute = true ∧ path.lead = [.root]) ∨
      (path.isAbsolute = false ∧ (path.lead = [.current] ∨ path.lead = [])) := by
  unfold lead
  cases path.isAbsolute with
  | true => exact Or.inl ⟨rfl, rfl⟩
  | false =>
      refine Or.inr ⟨rfl, ?_⟩
      rw [if_neg Bool.false_ne_true]
      split <;> simp

theorem isTrail_components (path : Path) : IsTrail path.components := by
  rw [components_eq]
  constructor
  · intro name hname
    rcases List.mem_append.mp hname with hlead | hinner
    · rcases lead_cases path with ⟨_, h⟩ | ⟨_, h | h⟩ <;> simp [h] at hlead
    · exact isName_of_mem_inner hinner
  · intro c hc
    apply ne_of_mem_inner
    rcases lead_cases path with ⟨_, h⟩ | ⟨_, h | h⟩ <;> rw [h] at hc
    · exact hc
    · exact hc
    · exact List.mem_of_mem_tail hc

theorem filter_components_of_relative {path : Path} (hpath : path.isAbsolute = false) :
    path.components.filter (· ≠ .current) = path.inner := by
  have hinner : path.inner.filter (· ≠ .current) = path.inner :=
    List.filter_eq_self.mpr fun c hc => by simpa using (ne_of_mem_inner hc).2
  rw [components_eq, List.filter_append, hinner]
  rcases lead_cases path with ⟨h, _⟩ | ⟨_, h | h⟩
  · exact absurd (hpath.symm.trans h) (by simp)
  · simp [h]
  · simp [h]

theorem root_mem_components_iff {path : Path} : .root ∈ path.components ↔ path.isAbsolute = true := by
  rw [components_eq]
  have hinner : .root ∉ path.inner := fun hmem => (ne_of_mem_inner hmem).1 rfl
  rcases lead_cases path with ⟨ha, h⟩ | ⟨ha, h | h⟩ <;> simp [h, ha, hinner]

end Components

section Join

/-- A path goes behind a slash, be it the one at the end of the base or another. -/
theorem toList_join {base path : Path} (hbase : base.text ≠ "") (hpath : path.isAbsolute = false) :
    ∃ front, (base.text.toList = front ∧ front ≠ [] ∨ base.text.toList = front ++ ['/']) ∧
      (base.join path).text.toList = front ++ '/' :: path.text.toList := by
  by_cases hslash : base.text.toList.getLast? = some '/'
  · obtain ⟨front, hfront⟩ := List.getLast?_eq_some_iff.mp hslash
    refine ⟨front, Or.inr hfront, ?_⟩
    simp [join, hpath, hfront]
  · refine ⟨base.text.toList, Or.inl ⟨rfl, by simpa using hbase⟩, ?_⟩
    simp [join, hpath, hslash, hbase]

theorem lead_join {base path : Path} (hbase : base.text ≠ "") (hpath : path.isAbsolute = false) :
    (base.join path).lead = base.lead := by
  obtain ⟨front, hfront, htext⟩ := toList_join hbase hpath
  have habsolute : (base.join path).isAbsolute = base.isAbsolute := by
    unfold isAbsolute
    rw [htext]
    rcases hfront with ⟨hfront, hne⟩ | hfront
    · rw [hfront, List.head?_append_of_ne_nil _ hne]
    · rw [hfront]
      cases front <;> simp
  have hhead : (segments (base.join path).text.toList).head? = (segments base.text.toList).head? := by
    rw [htext, head?_segments_append_slash]
    rcases hfront with ⟨hfront, _⟩ | hfront
    · rw [hfront]
    · rw [hfront, head?_segments_append_slash]
  rw [lead, lead, habsolute, hhead]

/-- What is read off the segments of a path, the empty ones apart, is read off both parts of a joined
path. -/
theorem filterMap_segments_join {base path : Path} {α : Type} {read : List Char → Option α}
    (hread : read [] = none) (hbase : base.text ≠ "") (hpath : path.isAbsolute = false) :
    (segments (base.join path).text.toList).filterMap read =
      (segments base.text.toList).filterMap read ++ (segments path.text.toList).filterMap read := by
  obtain ⟨front, hfront, htext⟩ := toList_join hbase hpath
  have hsegments : (segments base.text.toList).filterMap read = (segments front).filterMap read := by
    rcases hfront with ⟨hfront, _⟩ | hfront
    · rw [hfront]
    · rw [hfront, segments_append_slash, List.filterMap_append]
      simp [segments, hread]
  rw [hsegments, htext, segments_append_slash, List.filterMap_append]

theorem inner_join {base path : Path} (hbase : base.text ≠ "") (hpath : path.isAbsolute = false) :
    (base.join path).inner = base.inner ++ path.inner :=
  filterMap_segments_join rfl hbase hpath

theorem components_join {base path : Path} (hbase : base.text ≠ "")
    (hpath : path.isAbsolute = false) :
    (base.join path).components = base.components ++ path.components.filter (· ≠ .current) := by
  rw [filter_components_of_relative hpath, components_eq, components_eq, lead_join hbase hpath,
    inner_join hbase hpath, List.append_assoc]

theorem isAbsolute_join (base path : Path) :
    (base.join path).isAbsolute = (path.isAbsolute || base.isAbsolute) := by
  cases hpath : path.isAbsolute with
  | true => simp [join, hpath]
  | false =>
      by_cases hbase : base.text = ""
      · simp only [join, hpath, hbase, Bool.false_eq_true, if_false, Bool.false_or]
        simpa [isAbsolute, hbase] using hpath
      · rw [Bool.false_or, Bool.eq_iff_iff, ← root_mem_components_iff, ← root_mem_components_iff,
          components_join hbase hpath, List.mem_append, filter_components_of_relative hpath]
        exact or_iff_left fun hmem => (ne_of_mem_inner hmem).1 rfl

theorem text_ne_of_isAbsolute {path : Path} (hpath : path.isAbsolute = true) : path.text ≠ "" := by
  intro htext
  rw [isAbsolute, htext] at hpath
  exact absurd hpath (by simp)

/-- More text behind a path that stands behind another goes behind the path alone. -/
theorem extended_join {base path : Path} {ending : String}
    (hending : ending.toList.head? ≠ some '/') :
    (base.join path).extended ending = base.join (path.extended ending) := by
  have habsolute : (path.extended ending).isAbsolute = path.isAbsolute := by
    unfold isAbsolute extended
    rw [String.toList_append]
    cases path.text.toList with
    | nil => simpa using hending
    | cons c rest => rfl
  unfold join
  rw [habsolute]
  split
  · rfl
  · split <;> simp [extended, String.append_assoc]

end Join

section OfComponents

theorem ofComponents_append_singleton (front : List Component) (c : Component) :
    ofComponents (front ++ [c]) = (ofComponents front).join (ofComponent c) := by
  simp [ofComponents]

theorem isAbsolute_ofComponents_root (components : List Component) :
    (ofComponents (.root :: components)).isAbsolute = true := by
  induction components using List.reverseRecOn with
  | nil => rfl
  | append_singleton front c ih =>
      rw [← List.cons_append, ofComponents_append_singleton, isAbsolute_join, ih, Bool.or_true]

theorem components_ofComponent {c : Component} (hname : ∀ name, c = .normal name → IsName name) :
    (ofComponent c).components = [c] := by
  cases c with
  | root => rfl
  | current => rfl
  | parent => rfl
  | normal name =>
      have hname := hname name rfl
      have hhead : name.toList.head? ≠ some '/' := fun hhead =>
        hname.noSlash (List.mem_of_head? hhead)
      simp [components, ofComponent, isAbsolute, segments_of_not_mem hname.noSlash, hhead,
        hname.notDot, component?_of_isName hname]

theorem isTrail_of_sublist {some all : List Component} (htrail : IsTrail all) (hsome : some.Sublist all) :
    IsTrail some :=
  ⟨fun name hname => htrail.names name (hsome.subset hname),
    fun c hc => htrail.noLateStart c (hsome.tail.subset hc)⟩

theorem empty_join (path : Path) : (Path.mk "").join path = path := by
  unfold join
  split
  · rfl
  · simp

theorem text_ne_of_components_ne {path : Path} (hpath : path.components ≠ []) : path.text ≠ "" :=
  fun htext => hpath (by rw [show path = ⟨""⟩ from congrArg Path.mk htext]; rfl)

/-- A path has the components that it is put together from. -/
theorem components_ofComponents {components : List Component} (htrail : IsTrail components) :
    (ofComponents components).components = components := by
  induction components using List.reverseRecOn with
  | nil => rfl
  | append_singleton front c ih =>
      have hc := components_ofComponent (c := c) fun name hname =>
        htrail.names name (by simp [hname])
      have hfront := ih (isTrail_of_sublist htrail (List.sublist_append_left front [c]))
      rw [ofComponents_append_singleton]
      by_cases hempty : front = []
      · rw [hempty, show ofComponents [] = ⟨""⟩ from rfl, empty_join, hc, List.nil_append]
      · have hlate : c ≠ .root ∧ c ≠ .current := by
          apply htrail.noLateStart
          rw [List.tail_append_of_ne_nil hempty]
          exact List.mem_append_right _ List.mem_cons_self
        have hrelative : (ofComponent c).isAbsolute = false := by
          rw [← Bool.not_eq_true, ← root_mem_components_iff, hc]
          simpa using hlate.1.symm
        rw [components_join (text_ne_of_components_ne (by rwa [hfront])) hrelative, hfront, hc]
        simp [hlate.2]

end OfComponents

end Path

end BreakpointProps
