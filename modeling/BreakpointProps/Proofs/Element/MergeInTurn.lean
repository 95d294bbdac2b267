import BreakpointProps.Proofs.Element.Merge
import BreakpointProps.Proofs.ResponsiveProps

/-!
Merging as it is done on an ordered table: the breakpoints are taken out one after the other, then the
class list, and the merged one is put in. All other values keep their order, the order in which the
breakpoints were given does not matter, and there is nothing left to merge.
-/

namespace BreakpointProps

/-- A class list that stands alone is merged into itself. -/
theorem ResponsiveProps.merged_of_className {lists : ResponsiveProps} {classes : String}
    (hclass : lists.className = some classes) (hnone : ∀ b, lists.get? b = none) :
    lists.merged = classes := by
  have hempty : lists.breakpointTokens = [] := by
    rw [breakpointTokens_eq_nil_iff]
    simp [hnone]
  apply String.toList_inj.mp
  by_cases hbase : (lists.className.getD "").toList = []
  · rw [toList_merged_of_empty lists hbase, hempty]
    rw [hclass] at hbase
    exact hbase.symm
  · rw [toList_merged_of_ne lists hbase, if_pos hempty, List.append_nil, hclass]
    rfl

theorem Breakpoint.name_ne_className (b : Breakpoint) : b.name ≠ "className" := by
  cases b <;> decide

namespace Props

section Table

/-- Has every name one value at most? -/
def IsTable (props : Props) : Prop := (props.entries.map Prod.fst).Nodup

theorem get?_eq_some_iff {props : Props} (htable : props.IsTable) (name : String) (value : PropValue) :
    props.get? name = some value ↔ (name, value) ∈ props.entries := by
  obtain ⟨entries⟩ := props
  rw [IsTable] at htable
  rw [get?]
  induction entries with
  | nil => simp
  | cons entry rest ih =>
      obtain ⟨first, held⟩ := entry
      simp only [List.map_cons, List.nodup_cons] at htable
      rw [List.lookup_cons, List.mem_cons, Prod.mk.injEq]
      by_cases hname : name = first
      · subst hname
        have hlater : (name, value) ∉ rest := fun hmem => htable.1 (List.mem_map_of_mem hmem)
        simp [hlater, eq_comm]
      · simp [beq_false_of_ne hname, hname, ih htable.2]

/-- In a table the order does not matter for the value of a name. -/
theorem get?_eq_of_perm {props other : Props} (htable : props.IsTable)
    (hperm : props.entries.Perm other.entries) (name : String) : props.get? name = other.get? name := by
  have hother : other.IsTable := (hperm.map Prod.fst).nodup_iff.mp htable
  apply Option.ext
  intro value
  rw [get?_eq_some_iff htable, get?_eq_some_iff hother, hperm.mem_iff]

theorem map_fst_replace (name : String) (value : PropValue) (entries : List (String × PropValue)) :
    (replace name value entries).map Prod.fst = entries.map Prod.fst := by
  induction entries with
  | nil => rfl
  | cons entry rest ih =>
      obtain ⟨first, held⟩ := entry
      rw [replace]
      split
      · rfl
      · rw [List.map_cons, ih, List.map_cons]

theorem get?_eq_none_iff (props : Props) (name : String) :
    props.get? name = none ↔ name ∉ props.entries.map Prod.fst := by
  rw [get?, List.lookup_eq_none_iff, List.mem_map]
  constructor
  · rintro hnone ⟨entry, hentry, rfl⟩
    simpa using hnone entry hentry
  · intro hnone entry hentry
    rw [bne_iff_ne]
    rintro rfl
    exact hnone ⟨entry, hentry, rfl⟩

/-- Giving a name a value does not make it stand twice. -/
theorem IsTable.insert {props : Props} (htable : props.IsTable) (name : String) (value : PropValue) :
    (props.insert name value).IsTable := by
  unfold Props.insert
  split
  · rwa [IsTable, map_fst_replace]
  · rename_i hnone
    rw [Option.not_isSome_iff_eq_none, get?_eq_none_iff] at hnone
    rw [IsTable, List.map_append, List.nodup_append]
    refine ⟨htable, by simp, ?_⟩
    rintro other hother last hlast rfl
    obtain rfl : other = name := by simpa using hlast
    exact hnone hother

/-- Whatever is given to names, one after the other, ends up in a table. -/
theorem isTable_ofList (entries : List (String × PropValue)) : (ofList entries).IsTable := by
  induction entries using List.reverseRecOn with
  | nil => exact List.nodup_nil
  | append_singleton rest entry ih =>
      obtain ⟨name, value⟩ := entry
      rw [ofList_append_singleton]
      exact ih.insert name value

end Table

section InTurn

theorem erase_eq_only (props : Props) (name : String) :
    props.erase name = props.only fun other => other != name := rfl

theorem only_only (wanted other : String → Bool) (props : Props) :
    (props.only wanted).only other = props.only fun name => wanted name && other name := by
  simp [only, List.filter_filter, Bool.and_comm]

/-- Take a breakpoint out of the values, and keep what it has if that is a class list. -/
def takenOut (state : Props × ResponsiveProps) (b : Breakpoint) : Props × ResponsiveProps :=
  (state.1.erase b.name,
    match state.1.string? b.name with
    | some classes => state.2.set b classes
    | none => state.2)

/-- Merging with one name after the other: the breakpoints are taken out from the narrowest to the widest,
then the class list, and the merged class list is given to the element. -/
def mergedInTurn (props : Props) : Props :=
  let (rest, lists) := Breakpoint.all.foldl takenOut (props, {})
  let lists := match rest.string? "className" with
    | some classes => lists.withClassName classes
    | none => lists
  (rest.erase "className").insert "className" (.string lists.merged)

/-- Is this what is left, and what was kept, when some breakpoints were taken out? -/
structure IsTaken (props : Props) (bs : List Breakpoint) (state : Props × ResponsiveProps) : Prop where
  rest : state.1 = props.only fun name => bs.all fun b => name != b.name
  get? : ∀ b, state.2.get? b = if b ∈ bs then props.string? b.name else none
  className : state.2.className = none

variable {props : Props} {bs : List Breakpoint} {state : Props × ResponsiveProps}

theorem IsTaken.get?_rest (htaken : IsTaken props bs state) (name : String) :
    state.1.get? name = if ∃ b ∈ bs, name = b.name then none else props.get? name := by
  rw [htaken.rest, get?_only]
  by_cases hgone : ∃ b ∈ bs, name = b.name
  · simp [hgone]
  · have hkept : (bs.all fun b => name != b.name) = true := by simpa using hgone
    rw [if_pos hkept, if_neg hgone]

theorem IsTaken.string?_name (htaken : IsTaken props bs state) (b : Breakpoint) :
    state.1.string? b.name = if b ∈ bs then none else props.string? b.name := by
  rw [string?, htaken.get?_rest]
  simp only [Breakpoint.name_inj, exists_eq_right']
  split <;> rfl

/-- One more breakpoint is taken out. If it was taken out before, nothing changes. -/
theorem IsTaken.step (htaken : IsTaken props bs state) (b : Breakpoint) :
    IsTaken props (bs ++ [b]) (takenOut state b) where
  rest := by
    rw [takenOut, htaken.rest, erase_eq_only, only_only]
    simp
  get? c := by
    have hheld := htaken.string?_name b
    rw [takenOut]
    by_cases hc : c = b
    · subst hc
      by_cases hmem : c ∈ bs
      · -- It has no value any more, so what was kept for it stays.
        rw [if_pos hmem] at hheld
        simp [hheld, htaken.get?, hmem]
      · rw [if_neg hmem] at hheld
        cases hstring : props.string? c.name with
        | none => simp [hheld, hstring, htaken.get?, hmem]
        | some classes => simp [hheld, hstring]
    · have hother : c ∈ bs ++ [b] ↔ c ∈ bs := by simp [hc]
      rw [if_congr hother rfl rfl, ← htaken.get? c]
      split
      · exact ResponsiveProps.get?_set_of_ne _ hc _
      · rfl
  className := by
    rw [takenOut]
    split
    · rw [ResponsiveProps.className_set, htaken.className]
    · exact htaken.className

/-- Whatever breakpoints are taken out. -/
theorem isTaken_foldl (props : Props) (bs : List Breakpoint) :
    IsTaken props bs (bs.foldl takenOut (props, {})) := by
  -- From the end, since the breakpoint that is taken out last is the step.
  induction bs using List.reverseRecOn with
  | nil =>
      refine ⟨?_, fun b => ?_, rfl⟩
      · simp [only]
      · cases b <;> rfl
  | append_singleton rest b ih =>
      rw [List.foldl_concat]
      exact ih.step b

theorem isMerged_iff (name : String) :
    isMerged name = true ↔ name = "className" ∨ ∃ b : Breakpoint, name = b.name := by
  rw [isMerged, Bool.or_eq_true, beq_iff_eq, Option.isSome_iff_exists]
  refine or_congr_right (exists_congr fun b => ⟨fun hfound => ?_, ?_⟩)
  · exact (Breakpoint.name_of_ofName? hfound).symm
  · rintro rfl
    exact b.ofName?_name

/-- What is left when all names were taken out are the values that merging leaves alone. -/
theorem IsTaken.only_rest (htaken : IsTaken props Breakpoint.all state) :
    state.1.erase "className" = props.only fun name => !isMerged name := by
  rw [htaken.rest, erase_eq_only, only_only]
  congr 1
  funext name
  rw [Bool.eq_iff_iff, Bool.not_eq_true', ← Bool.not_eq_true, isMerged_iff]
  simp [and_comm]

/-- What was kept when all names were taken out are the class lists among the values. -/
theorem IsTaken.responsive (htaken : IsTaken props Breakpoint.all state) :
    (match state.1.string? "className" with
      | some classes => state.2.withClassName classes
      | none => state.2) = props.responsive := by
  have hclass : state.1.string? "className" = props.string? "className" := by
    have hnone : ¬ ∃ b ∈ Breakpoint.all, "className" = b.name := by decide
    rw [string?, htaken.get?_rest, if_neg hnone, string?]
  have hlists : ∀ b, state.2.get? b = props.responsive.get? b := by
    intro b
    rw [htaken.get?, if_pos b.mem_all, get?_responsive]
  rw [hclass]
  apply ResponsiveProps.ext_slot
  intro slot
  cases hstring : props.string? "className" with
  | none =>
      cases slot with
      | none => exact htaken.className.trans hstring.symm
      | some b => exact hlists b
  | some classes =>
      cases slot with
      | none => exact hstring.symm
      | some b => exact (ResponsiveProps.get?_withClassName _ b classes).trans (hlists b)

/-- Taking the names out one after the other comes to the same as leaving them all out at once. -/
theorem merged_eq_mergedInTurn (props : Props) : props.merged = props.mergedInTurn := by
  have htaken := isTaken_foldl props Breakpoint.all
  have hgone : (props.only fun name => !isMerged name).get? "className" = none :=
    get?_only_of_unwanted _ props (by decide)
  simp only [mergedInTurn, htaken.responsive, htaken.only_rest]
  rw [insert, hgone]
  rfl

end InTurn

section Again

/-- No breakpoint is left after merging. -/
theorem get?_name_merged (props : Props) (b : Breakpoint) : props.merged.get? b.name = none := by
  have hunwanted : (!isMerged b.name) = false := by rw [isMerged_name]; rfl
  have hgone := get?_only_of_unwanted (fun name => !isMerged name) props hunwanted
  rw [get?, only] at hgone
  rw [merged, get?, List.lookup_append, hgone, Option.none_or, List.lookup_eq_none_iff]
  simp [b.name_ne_className]

theorem hasBreakpoint_merged (props : Props) : props.merged.hasBreakpoint = false := by
  simp [hasBreakpoint, get?_name_merged]

/-- There is nothing left to merge. -/
theorem merged_merged (props : Props) : props.merged.merged = props.merged := by
  have hlists : props.merged.responsive.merged = props.responsive.merged := by
    apply ResponsiveProps.merged_of_className
    · simp [responsive, string?, PropValue.string?]
    · intro b
      rw [get?_responsive, string?, get?_name_merged]
      rfl
  calc props.merged.merged
      = ⟨(props.merged.only fun name => !isMerged name).entries ++
          [("className", .string props.merged.responsive.merged)]⟩ := rfl
    _ = ⟨(props.only fun name => !isMerged name).entries ++
          [("className", .string props.responsive.merged)]⟩ := by rw [only_merged, hlists]
    _ = props.merged := rfl

end Again

theorem mem_names_iff (name : String) :
    name ∈ ["sm", "md", "lg", "xl", "xxl"] ↔ ∃ b : Breakpoint, name = b.name := by
  have hnames : name ∈ Breakpoint.all.map Breakpoint.name ↔ ∃ b : Breakpoint, name = b.name := by
    simp [eq_comm]
  exact hnames

theorem filter_isMerged (entries : List (String × PropValue)) :
    (entries.filter fun (name, _) => !isMerged name) =
      entries.filter fun (name, _) => name ∉ ["sm", "md", "lg", "xl", "xxl", "className"] := by
  apply List.filter_congr
  rintro ⟨name, value⟩ _
  rw [Bool.eq_iff_iff, Bool.not_eq_true', ← Bool.not_eq_true, isMerged_iff, ← mem_names_iff,
    decide_eq_true_iff]
  simp only [List.mem_cons, List.not_mem_nil, or_false]
  tauto

/-- What is left after merging, whatever was given and in whatever order: no breakpoint, all other values
as they were, and behind them one class list, which is merged from the strings that the breakpoints and the
class list had. In a table the order of the names does not matter for it. It is what taking the names
out one after the other leaves, no breakpoint is given any more, and merging again changes nothing. -/
theorem entries_merged (props : Props) :
    (∃ lists : ResponsiveProps,
      (∀ b, lists.get? b = (props.get? b.name).bind PropValue.string?) ∧
      lists.className = (props.get? "className").bind PropValue.string? ∧
      props.merged.entries =
        (props.entries.filter fun (name, _) => name ∉ ["sm", "md", "lg", "xl", "xxl", "className"]) ++
          [("className", .string lists.merged)]) ∧
    (∀ entry ∈ props.merged.entries, entry.1 ∉ ["sm", "md", "lg", "xl", "xxl"]) ∧
    (props.merged.entries.map Prod.fst).count "className" = 1 ∧
    (∀ other : Props, props.IsTable → props.entries.Perm other.entries →
      other.merged.get? "className" = props.merged.get? "className") ∧
    props.merged = props.mergedInTurn ∧
    props.merged.hasBreakpoint = false ∧
    props.merged.merged = props.merged := by
  have hentries : props.merged.entries =
      (props.entries.filter fun (name, _) => name ∉ ["sm", "md", "lg", "xl", "xxl", "className"]) ++
        [("className", .string props.responsive.merged)] := by
    rw [merged, filter_isMerged]
  refine ⟨⟨props.responsive, props.get?_responsive, rfl, hentries⟩, ?_, ?_, ?_,
    props.merged_eq_mergedInTurn, props.hasBreakpoint_merged, props.merged_merged⟩
  · intro entry hentry hname
    obtain ⟨b, hb⟩ := (mem_names_iff entry.1).mp hname
    have hnone := (props.merged.get?_eq_none_iff b.name).mp (props.get?_name_merged b)
    exact hnone (hb ▸ List.mem_map_of_mem hentry)
  · have hothers : ((props.entries.filter fun (name, _) =>
        name ∉ ["sm", "md", "lg", "xl", "xxl", "className"]).map Prod.fst).count "className" = 0 := by
      rw [List.count_eq_zero, List.mem_map]
      rintro ⟨entry, hentry, hname⟩
      rw [List.mem_filter] at hentry
      simp [hname] at hentry
    rw [hentries, List.map_append, List.count_append, hothers]
    rfl
  · intro other htable hperm
    have hlists : other.responsive = props.responsive := by
      simp only [responsive, string?, get?_eq_of_perm htable hperm]
    rw [get?_className_merged, get?_className_merged, hlists]

/-- The same values the other way round are merged into the same class list. -/
theorem entries_merged_reversed :
    let props : Props := .ofList [("md", .string "flex"), ("id", .string "a"), ("className", .string "b")]
    let reversed : Props := ⟨props.entries.reverse⟩
    props.IsTable ∧ reversed.merged.get? "className" = props.merged.get? "className" ∧
      props.merged.get? "className" = some (.string "b md:flex") := by
  intro props reversed
  have htable : props.IsTable := isTable_ofList _
  have hperm : props.entries.Perm reversed.entries := (List.reverse_perm _).symm
  have hclass : props.responsive.merged = "b md:flex" := by decide
  refine ⟨htable, (entries_merged props).2.2.2.1 reversed htable hperm, ?_⟩
  rw [get?_className_merged, hclass]

end Props

end BreakpointProps
