import Mathlib.Data.List.Induction
import BreakpointProps.Element.Merge

/-!
The values of an element as an ordered table: what a name has after values were given, and the part of
a table that holds some of the names.
-/

namespace BreakpointProps.Props

theorem lookup_replace (name : String) (value : PropValue) (entries : List (String × PropValue))
    (other : String) :
    (replace name value entries).lookup other =
      if other = name then (entries.lookup name).map fun _ => value else entries.lookup other := by
  induction entries with
  | nil => simp [replace]
  | cons entry rest ih =>
      obtain ⟨first, held⟩ := entry
      by_cases hfirst : first = name
      · subst hfirst
        by_cases hother : other = first
        · simp [replace, hother]
        · simp [replace, hother, List.lookup_cons, beq_false_of_ne]
      · by_cases hother : other = first
        · subst hother
          simp [replace, hfirst]
        · rw [replace, if_neg (by simpa using hfirst), List.lookup_cons, beq_false_of_ne hother, ih,
            List.lookup_cons, List.lookup_cons, beq_false_of_ne hother,
            beq_false_of_ne (Ne.symm hfirst)]

/-- Giving a name a value changes what this name has and nothing else. -/
@[simp] theorem get?_insert (props : Props) (name : String) (value : PropValue) (other : String) :
    (props.insert name value).get? other = if other = name then some value else props.get? other := by
  unfold insert
  split
  · rename_i hsome
    obtain ⟨held, hheld⟩ := Option.isSome_iff_exists.mp hsome
    rw [get?] at hheld
    rw [get?, get?, lookup_replace, hheld]
    rfl
  · rename_i hnone
    rw [Option.not_isSome_iff_eq_none, get?] at hnone
    simp only [get?, List.lookup_append]
    by_cases hother : other = name
    · simp [hother, hnone]
    · simp [hother, List.lookup_cons, beq_false_of_ne]

theorem entries_insert_of_none {props : Props} {name : String} (hnone : props.get? name = none)
    (value : PropValue) : (props.insert name value).entries = props.entries ++ [(name, value)] := by
  simp [insert, hnone]

/-- The entries whose names are wanted. -/
def only (wanted : String → Bool) (props : Props) : Props :=
  ⟨props.entries.filter fun (name, _) => wanted name⟩

theorem get?_only (wanted : String → Bool) (props : Props) (name : String) :
    (props.only wanted).get? name = if wanted name then props.get? name else none := by
  obtain ⟨entries⟩ := props
  simp only [only, get?]
  induction entries with
  | nil => simp
  | cons entry rest ih =>
      obtain ⟨first, held⟩ := entry
      by_cases hname : name = first
      · subst hname
        cases hwanted : wanted name with
        | true => simp [hwanted]
        | false => simpa [hwanted] using ih
      · rw [List.lookup_cons, beq_false_of_ne hname, List.filter_cons]
        split
        · rw [List.lookup_cons, beq_false_of_ne hname]
          exact ih
        · exact ih

theorem get?_only_of_wanted {wanted : String → Bool} {name : String} (hwanted : wanted name = true)
    (props : Props) : (props.only wanted).get? name = props.get? name := by
  rw [get?_only, if_pos hwanted]

theorem get?_only_of_unwanted (wanted : String → Bool) (props : Props) {name : String}
    (hunwanted : wanted name = false) : (props.only wanted).get? name = none := by
  simp [get?_only, hunwanted]

theorem filter_replace (wanted : String → Bool) (name : String) (value : PropValue)
    (entries : List (String × PropValue)) :
    (replace name value entries).filter (fun (name, _) => wanted name) =
      if wanted name then replace name value (entries.filter fun (name, _) => wanted name)
      else entries.filter fun (name, _) => wanted name := by
  induction entries with
  | nil => simp [replace]
  | cons entry rest ih =>
      obtain ⟨first, held⟩ := entry
      by_cases hfirst : first = name
      · subst hfirst
        cases hwanted : wanted first <;> simp [replace, hwanted]
      · have hbeq : (first == name) = false := beq_false_of_ne hfirst
        cases hwanted : wanted first <;> cases hname : wanted name <;>
          simp_all [replace]

/-- A value that is given to a wanted name is given in the wanted part, any other one is not. -/
theorem only_insert (wanted : String → Bool) (props : Props) (name : String) (value : PropValue) :
    (props.insert name value).only wanted =
      if wanted name then (props.only wanted).insert name value else props.only wanted := by
  cases hwanted : wanted name with
  | true =>
      unfold insert
      rw [get?_only_of_wanted hwanted]
      split
      · simp [only, filter_replace, hwanted]
      · simp [only, hwanted]
  | false =>
      unfold insert
      split
      · simp [only, filter_replace, hwanted]
      · simp [only, hwanted]

theorem ofList_append_singleton (entries : List (String × PropValue)) (name : String)
    (value : PropValue) :
    ofList (entries ++ [(name, value)]) = (ofList entries).insert name value := by
  simp [ofList]

/-- The wanted part of what a list gives is what the wanted part of the list gives. -/
theorem only_ofList (wanted : String → Bool) (entries : List (String × PropValue)) :
    (ofList entries).only wanted = ofList (entries.filter fun (name, _) => wanted name) := by
  induction entries using List.reverseRecOn with
  | nil => rfl
  | append_singleton rest entry ih =>
      obtain ⟨name, value⟩ := entry
      rw [ofList_append_singleton, only_insert, ih, List.filter_append, List.filter_cons]
      split
      · rw [List.filter_nil, ofList_append_singleton]
      · rw [List.filter_nil, List.append_nil]

/-- A name has the value that it was given last. -/
theorem get?_ofList (entries : List (String × PropValue)) (name : String) :
    (ofList entries).get? name = entries.reverse.lookup name := by
  induction entries using List.reverseRecOn with
  | nil => rfl
  | append_singleton rest entry ih =>
      obtain ⟨other, value⟩ := entry
      rw [ofList_append_singleton, get?_insert, List.reverse_append, ih]
      by_cases hname : name = other
      · simp [hname]
      · simp [hname, List.lookup_cons, beq_false_of_ne]

/-- A name has a value if it was given one. -/
theorem get?_ofList_eq_none_iff (entries : List (String × PropValue)) (name : String) :
    (ofList entries).get? name = none ↔ ∀ entry ∈ entries, entry.1 ≠ name := by
  induction entries using List.reverseRecOn with
  | nil => simp [ofList, get?]
  | append_singleton rest entry ih =>
      obtain ⟨other, value⟩ := entry
      rw [ofList_append_singleton, get?_insert]
      by_cases hname : name = other
      · simp [hname]
      · simp only [hname, ↓reduceIte, ih, List.mem_append, List.mem_singleton]
        constructor
        · rintro hrest entry (hentry | rfl)
          · exact hrest entry hentry
          · exact Ne.symm hname
        · intro hall entry hentry
          exact hall entry (Or.inl hentry)

/-- The breakpoints are among the names that are merged. -/
theorem isMerged_name (b : Breakpoint) : isMerged b.name = true := by
  simp [isMerged]

/-- Giving a breakpoint a string is giving it a class list. -/
@[simp] theorem responsive_insert_name (props : Props) (b : Breakpoint) (classes : String) :
    (props.insert b.name (.string classes)).responsive = props.responsive.set b classes := by
  cases b <;>
    simp [responsive, string?, ResponsiveProps.set, Breakpoint.name, PropValue.string?]

@[simp] theorem responsive_insert_className (props : Props) (classes : String) :
    (props.insert "className" (.string classes)).responsive =
      props.responsive.withClassName classes := by
  simp [responsive, string?, ResponsiveProps.withClassName, Breakpoint.name, PropValue.string?]

end BreakpointProps.Props
