import Mathlib.Data.List.TakeWhile
import BreakpointProps.Proofs.ResponsiveProps

/-!
The classes that a merged class list shows. Whoever reads a class list takes it apart at tabs and ends of
lines as well, where merging takes the lists of the breakpoints apart at spaces only. So a variant stands
in front of each word, and what the word holds behind a tab or the end of a line is shown without it.
-/

namespace BreakpointProps

namespace ClassList

section Separators

/-- What keeps classes apart where a class list is shown: space, tab, line feed, form feed and carriage
return. -/
def isSeparator (c : Char) : Bool := [' ', '\t', '\n', '\x0c', '\r'].contains c

/-- Can this character stand in a class that is shown? -/
def isPlain (c : Char) : Bool := !isSeparator c

/-- The classes that a class list shows: its parts between separators, those that are not empty. -/
def shown (text : List Char) : List (List Char) := (text.splitOnP isSeparator).filter (· ≠ [])

@[simp] theorem shown_nil : shown [] = [] := rfl

theorem shown_append_separator {c : Char} (hc : isSeparator c = true) (left right : List Char) :
    shown (left ++ c :: right) = shown left ++ shown right := by
  simp only [shown]
  rw [List.splitOnP_append_cons left right hc, List.filter_append]

theorem shown_cons_separator {c : Char} (hc : isSeparator c = true) (text : List Char) :
    shown (c :: text) = shown text :=
  shown_append_separator hc [] text

theorem shown_of_isPlain {name : List Char} (hne : name ≠ []) (hplain : ∀ c ∈ name, isPlain c = true) :
    shown name = [name] := by
  have hsplit : name.splitOnP isSeparator = [name] := by
    apply List.splitOnP_eq_singleton
    intro c hc
    simpa [isPlain] using hplain c hc
  simp [shown, hsplit, hne]

/-- A class reaches up to the first separator behind it. -/
theorem shown_append {name behind : List Char} (hne : name ≠ [])
    (hplain : ∀ c ∈ name, isPlain c = true) (hbehind : ∀ c ∈ behind.head?, isSeparator c = true) :
    shown (name ++ behind) = name :: shown behind := by
  cases behind with
  | nil => rw [List.append_nil, shown_of_isPlain hne hplain, shown_nil]
  | cons c rest =>
      have hc : isSeparator c = true := hbehind c rfl
      rw [shown_append_separator hc, shown_cons_separator hc, shown_of_isPlain hne hplain,
        List.singleton_append]

theorem isSeparator_of_mem_head?_dropWhile (text : List Char) :
    ∀ c ∈ (text.dropWhile isPlain).head?, isSeparator c = true := by
  intro c hc
  have hstop := List.head?_dropWhile_not isPlain text
  rw [hc] at hstop
  simpa [isPlain] using hstop

/-- What comes in front of the first separator is the first class, unless there is nothing. -/
theorem shown_eq (text : List Char) :
    shown text =
      (if text.takeWhile isPlain = [] then [] else [text.takeWhile isPlain]) ++
        shown (text.dropWhile isPlain) := by
  conv_lhs => rw [← List.takeWhile_append_dropWhile (p := isPlain) (l := text)]
  split
  · rename_i hempty
    rw [hempty, List.nil_append, List.nil_append]
  · rename_i hne
    exact shown_append hne (fun c hc => List.mem_takeWhile_imp hc)
      (isSeparator_of_mem_head?_dropWhile text)

/-- Nothing is shown if there are separators only. -/
theorem shown_eq_nil_iff (text : List Char) : shown text = [] ↔ ∀ c ∈ text, isSeparator c = true := by
  induction text with
  | nil => simp
  | cons c rest ih =>
      cases hc : isSeparator c with
      | true => simp [shown_cons_separator hc, ih, hc]
      | false =>
          have hfirst : isPlain c = true := by simp [isPlain, hc]
          rw [shown_eq]
          simp [hfirst, hc]

theorem shown_joined (pieces : List (List Char)) : shown (joined pieces) = pieces.flatMap shown :=
  apply_joined shown_nil (shown_append_separator rfl) pieces

end Separators

section Words

theorem joined_splitOn (text : List Char) : joined (text.splitOn ' ') = text := by
  have hjoined : ∀ pieces : List (List Char), joined pieces = [' '].intercalate pieces := by
    intro pieces
    induction pieces with
    | nil => rfl
    | cons piece rest ih =>
        cases rest with
        | nil => simp [joined]
        | cons next more => simp [joined, ih, List.intercalate_cons_cons]
  rw [hjoined, List.intercalate_splitOn]

/-- Since a space is a separator, what a list shows is what its words show. -/
theorem shown_eq_flatMap_words (text : List Char) : shown text = (words text).flatMap shown := by
  have hempty : ∀ pieces : List (List Char),
      (pieces.filter (· ≠ [])).flatMap shown = pieces.flatMap shown := by
    intro pieces
    induction pieces with
    | nil => rfl
    | cons piece rest ih =>
        cases piece with
        | nil => simpa using ih
        | cons c more => simpa using ih
  rw [words, hempty, ← shown_joined, joined_splitOn]

/-- Is a word one class, with nothing but separators behind it? -/
def IsLone (word : List Char) : Prop :=
  ∃ name behind, word = name ++ behind ∧ name ≠ [] ∧ (∀ c ∈ name, isPlain c = true) ∧
    ∀ c ∈ behind, isSeparator c = true

theorem isLone_iff (word : List Char) :
    IsLone word ↔ word.takeWhile isPlain ≠ [] ∧ shown (word.dropWhile isPlain) = [] := by
  rw [shown_eq_nil_iff]
  constructor
  · rintro ⟨name, behind, rfl, hne, hplain, hbehind⟩
    rw [List.takeWhile_append_of_pos hplain, List.dropWhile_append_of_pos hplain]
    refine ⟨by simp [hne], ?_⟩
    intro c hc
    exact hbehind c ((List.dropWhile_sublist _).subset hc)
  · rintro ⟨hne, hbehind⟩
    refine ⟨_, _, List.takeWhile_append_dropWhile.symm, hne, ?_, hbehind⟩
    intro c hc
    exact List.mem_takeWhile_imp hc

variable {variant : List Char} (hne : variant ≠ []) (hvariant : ∀ c ∈ variant, isPlain c = true)
include hne hvariant

/-- A variant in front of a word is in front of its first class only, or stands alone. -/
theorem shown_variant_append (word : List Char) :
    shown (variant ++ word) =
      (variant ++ word.takeWhile isPlain) :: shown (word.dropWhile isPlain) := by
  conv_lhs => rw [← List.takeWhile_append_dropWhile (p := isPlain) (l := word), ← List.append_assoc]
  refine shown_append (by simp [hne]) ?_ (isSeparator_of_mem_head?_dropWhile word)
  intro c hc
  rcases List.mem_append.mp hc with hmem | hmem
  · exact hvariant c hmem
  · exact List.mem_takeWhile_imp hmem

theorem length_map_shown_le (word : List Char) :
    ((shown word).map (variant ++ ·)).length ≤ (shown (variant ++ word)).length := by
  rw [shown_variant_append hne hvariant, shown_eq word]
  split <;> simp

/-- The variant is in front of every class of a word, and of nothing else, if the word is one class. -/
theorem shown_variant_append_eq_map_iff (word : List Char) :
    shown (variant ++ word) = (shown word).map (variant ++ ·) ↔ IsLone word := by
  rw [isLone_iff, shown_variant_append hne hvariant, shown_eq word]
  split
  · -- A separator comes first: the variant is a class of its own and there is one class too many.
    rename_i hempty
    constructor
    · intro heq
      simpa using congrArg List.length heq
    · rintro ⟨hfirst, _⟩
      exact absurd hempty hfirst
  · rename_i hfirst
    rw [List.singleton_append, List.map_cons, List.cons_inj_right, and_iff_right hfirst]
    cases shown (word.dropWhile isPlain) with
    | nil => simp
    | cons name rest => simp [hne]

end Words

section Lists

variable {α β : Type} {f g : α → List β} {xs : List α}

theorem length_flatMap_le (hlength : ∀ x ∈ xs, (g x).length ≤ (f x).length) :
    (xs.flatMap g).length ≤ (xs.flatMap f).length := by
  induction xs with
  | nil => exact Nat.le_refl _
  | cons x rest ih =>
      rw [List.forall_mem_cons] at hlength
      rw [List.flatMap_cons, List.flatMap_cons, List.length_append, List.length_append]
      exact Nat.add_le_add hlength.1 (ih hlength.2)

/-- Lists put together from parts are equal only part by part, if no part of the one is longer. -/
theorem flatMap_eq_flatMap_iff (hlength : ∀ x ∈ xs, (g x).length ≤ (f x).length) :
    xs.flatMap f = xs.flatMap g ↔ ∀ x ∈ xs, f x = g x := by
  induction xs with
  | nil => simp
  | cons x rest ih =>
      rw [List.forall_mem_cons] at hlength
      rw [List.flatMap_cons, List.flatMap_cons, List.forall_mem_cons, ← ih hlength.2]
      constructor
      · intro heq
        have htotal := congrArg List.length heq
        have hrest := length_flatMap_le hlength.2
        rw [List.length_append, List.length_append] at htotal
        exact List.append_inj heq (by have := hlength.1; omega)
      · rintro ⟨hfirst, hrest⟩
        rw [hfirst, hrest]

end Lists

end ClassList

open ClassList

/-- A variant is not empty and holds no separator. -/
theorem Breakpoint.isPlain_of_mem_variant (b : Breakpoint) :
    b.variant.toList ≠ [] ∧ ∀ c ∈ b.variant.toList, isPlain c = true := by
  rw [← List.all_eq_true]
  cases b <;> decide

namespace ResponsiveProps

variable (props : ResponsiveProps)

/-- The merged list shows what the class list of the element shows, and then what each word of the
breakpoints shows behind its variant. -/
theorem shown_toList_merged :
    shown props.merged.toList = shown (props.className.getD "").toList ++
      Breakpoint.all.flatMap fun b =>
        (words ((props.get? b).getD "").toList).flatMap fun word => shown (b.variant.toList ++ word) := by
  have hbase : ([(props.className.getD "").toList].filter (!·.isEmpty)).flatMap shown =
      shown (props.className.getD "").toList := by
    cases (props.className.getD "").toList <;> simp
  rw [merged, String.toList_ofList, shown_joined, pieces, List.flatMap_append, hbase, List.flatMap_assoc]
  simp only [prefixedTokens, tokensWith, tokens_eq_words, List.flatMap_map]

/-- Merging takes the lists of the breakpoints apart at spaces, whereas a class list is shown in parts
between separators of five kinds. A word of a breakpoint is shown as its variant with the characters up to
the first other separator, and then as the further classes of the word, without the variant. So each
class of a breakpoint is shown behind its variant, and nothing else is shown, exactly if each word is one
class with at most separators behind it. -/
theorem shown_merged :
    let value := fun b => ((props.get? b).getD "").toList
    let base := shown (props.className.getD "").toList
    shown props.merged.toList = base ++ Breakpoint.all.flatMap (fun b =>
        (words (value b)).flatMap fun word =>
          (b.variant.toList ++ word.takeWhile isPlain) :: shown (word.dropWhile isPlain)) ∧
      (shown props.merged.toList = base ++ Breakpoint.all.flatMap (fun b =>
          (shown (value b)).map (b.variant.toList ++ ·)) ↔
        ∀ b, ∀ word ∈ words (value b), IsLone word) := by
  intro value base
  have hshown := props.shown_toList_merged
  constructor
  · rw [hshown]
    congr 2
    funext b
    obtain ⟨hne, hplain⟩ := b.isPlain_of_mem_variant
    simp only [shown_variant_append hne hplain, value]
  · have hlist : ∀ b : Breakpoint, (shown (value b)).map (b.variant.toList ++ ·) =
        (words (value b)).flatMap fun word => (shown word).map (b.variant.toList ++ ·) := by
      intro b
      rw [shown_eq_flatMap_words, List.map_flatMap]
    have hlength : ∀ b : Breakpoint, ∀ word ∈ words (value b),
        ((shown word).map (b.variant.toList ++ ·)).length ≤ (shown (b.variant.toList ++ word)).length := by
      intro b word _
      obtain ⟨hne, hplain⟩ := b.isPlain_of_mem_variant
      exact length_map_shown_le hne hplain word
    simp only [hshown, hlist]
    rw [List.append_cancel_left_eq, flatMap_eq_flatMap_iff fun b _ => length_flatMap_le (hlength b)]
    constructor
    · intro heq b word hword
      obtain ⟨hne, hplain⟩ := b.isPlain_of_mem_variant
      rw [← shown_variant_append_eq_map_iff hne hplain]
      exact (flatMap_eq_flatMap_iff (hlength b)).mp (heq b b.mem_all) word hword
    · intro hlone b _
      obtain ⟨hne, hplain⟩ := b.isPlain_of_mem_variant
      refine (flatMap_eq_flatMap_iff (hlength b)).mpr fun word hword => ?_
      exact (shown_variant_append_eq_map_iff hne hplain word).mpr (hlone b word hword)

/-- Only the first line of a list of two lines is shown behind the variant. -/
theorem shown_merged_lines :
    let props : ResponsiveProps := { md := some "a\nb" }
    shown props.merged.toList = ["md:a".toList, "b".toList] ∧
      shown props.merged.toList ≠ shown (props.className.getD "").toList ++
        Breakpoint.all.flatMap fun b =>
          (shown ((props.get? b).getD "").toList).map (b.variant.toList ++ ·) := by
  decide

end ResponsiveProps

end BreakpointProps
