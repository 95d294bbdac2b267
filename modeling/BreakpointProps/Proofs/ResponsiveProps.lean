import Mathlib.Data.List.Chain
import BreakpointProps.Proofs.ClassList

/-!
The text of a merged class list. It starts with the class list of the element as that was given, and behind
it stand the classes of the breakpoints with one space between each two, whatever spaces they were given
with.
-/

namespace BreakpointProps

namespace ClassList

section Words

/-- The parts of a text between its spaces, those that are not empty. -/
def words (value : List Char) : List (List Char) := (value.splitOn ' ').filter (· ≠ [])

theorem words_of_not_mem {value : List Char} (hspace : ' ' ∉ value) :
    words value = if value = [] then [] else [value] := by
  have hsplit : value.splitOn ' ' = [value] := by
    rw [List.splitOn_eq_splitOnP]
    apply List.splitOnP_eq_singleton
    intro c hc
    rw [beq_eq_false_iff_ne]
    rintro rfl
    exact hspace hc
  rw [words, hsplit]
  by_cases hempty : value = [] <;> simp [hempty]

theorem words_append_space (left right : List Char) :
    words (left ++ ' ' :: right) = words left ++ words right := by
  simp only [words, List.splitOn_eq_splitOnP]
  rw [List.splitOnP_append_cons left right (by simp), List.filter_append]

/-- The classes of a list are its parts between spaces. -/
theorem tokens_eq_words (value : List Char) : tokens value = words value := by
  induction hlength : value.length using Nat.strongRecOn generalizing value with
  | ind n ih =>
      by_cases hspace : ' ' ∈ value
      · -- At the first space the list falls into one class at most and a shorter list.
        obtain ⟨left, right, rfl, hleft⟩ := List.eq_append_cons_of_mem hspace
        have hright : right.length < n := by simp [← hlength]; omega
        have hfirst : tokens left = words left := by
          rw [words_of_not_mem hleft]
          split
          · rename_i hempty
            rw [hempty, tokens_nil]
          · rename_i hne
            exact tokens_of_not_mem hne hleft
        rw [tokens_append_space, words_append_space, hfirst, ih _ hright right rfl]
      · rw [words_of_not_mem hspace]
        split
        · rename_i hempty
          rw [hempty, tokens_nil]
        · rename_i hne
          exact tokens_of_not_mem hne hspace

/-- A text has no class if it consists of spaces. -/
theorem tokens_eq_nil_iff (value : List Char) : tokens value = [] ↔ ∀ c ∈ value, c = ' ' := by
  induction value with
  | nil => simp
  | cons c rest ih =>
      by_cases hc : c = ' '
      · simp [hc, ih]
      · obtain ⟨token, more, htokens⟩ := exists_tokens_cons hc rest
        simp [htokens, hc]

end Words

section Spaced

/-- Is a text not empty, with no space at its ends and no two spaces in a row? -/
structure IsSpaced (text : List Char) : Prop where
  ne_nil : text ≠ []
  first : text.head? ≠ some ' '
  last : text.getLast? ≠ some ' '
  single : text.IsChain fun c d => c = ' ' → d ≠ ' '

theorem isSpaced_of_not_mem {token : List Char} (hne : token ≠ []) (hspace : ' ' ∉ token) :
    IsSpaced token := by
  refine ⟨hne, fun hfirst => ?_, fun hlast => ?_, ?_⟩
  · exact hspace (List.mem_of_mem_head? hfirst)
  · exact hspace (List.mem_of_getLast? hlast)
  · refine (List.pairwise_of_forall_mem_list fun c hc d _ hcspace => ?_).isChain
    exact absurd (hcspace ▸ hc) hspace

/-- A class in front of a spaced text, with one space between them. -/
theorem IsSpaced.cons {token text : List Char} (hne : token ≠ []) (hspace : ' ' ∉ token)
    (htext : IsSpaced text) : IsSpaced (token ++ ' ' :: text) := by
  have htoken := isSpaced_of_not_mem hne hspace
  refine ⟨by simp, ?_, ?_, ?_⟩
  · rw [List.head?_append_of_ne_nil _ hne]
    exact htoken.first
  · rw [List.getLast?_append_cons, List.getLast?_cons_of_ne_nil htext.ne_nil]
    exact htext.last
  · rw [List.isChain_append, List.isChain_cons]
    refine ⟨htoken.single, ⟨fun d hd _ hdspace => ?_, htext.single⟩, fun c hc d _ hcspace => ?_⟩
    · exact htext.first (hdspace ▸ hd)
    · exact absurd (hcspace ▸ List.mem_of_getLast? hc) hspace

/-- Joined classes have single spaces between them and nowhere else. -/
theorem isSpaced_joined {pieces : List (List Char)} (hne : pieces ≠ [])
    (hpieces : ∀ piece ∈ pieces, piece ≠ [] ∧ ' ' ∉ piece) : IsSpaced (joined pieces) := by
  induction pieces with
  | nil => exact absurd rfl hne
  | cons piece rest ih =>
      obtain ⟨hpiece, hspace⟩ := hpieces piece List.mem_cons_self
      cases rest with
      | nil => exact isSpaced_of_not_mem hpiece hspace
      | cons next more =>
          have hrest := ih (List.cons_ne_nil next more) fun p hp => hpieces p (List.mem_cons_of_mem _ hp)
          exact hrest.cons hpiece hspace

end Spaced

end ClassList

open ClassList

namespace ResponsiveProps

section Assigned

/-- The class list in a slot: that of a breakpoint, or that of the element. -/
def slot (props : ResponsiveProps) : Option Breakpoint → Option String
  | none => props.className
  | some b => props.get? b

/-- Give a slot a class list. -/
def assign (props : ResponsiveProps) : Option Breakpoint × String → ResponsiveProps
  | (none, classes) => props.withClassName classes
  | (some b, classes) => props.set b classes

/-- What slots hold after they were given class lists one after the other. -/
def assigned (given : List (Option Breakpoint × String)) : ResponsiveProps := given.foldl assign {}

/-- What is in the slots is all there is. -/
theorem ext_slot {props other : ResponsiveProps} (hslot : ∀ slot, props.slot slot = other.slot slot) :
    props = other := by
  obtain ⟨_, _, _, _, _, _⟩ := props
  obtain ⟨_, _, _, _, _, _⟩ := other
  rw [ResponsiveProps.mk.injEq]
  exact ⟨hslot none, hslot (some .sm), hslot (some .md), hslot (some .lg), hslot (some .xl), hslot (some .xxl)⟩

theorem slot_assign (props : ResponsiveProps) (slot other : Option Breakpoint) (classes : String) :
    (props.assign (slot, classes)).slot other = if other = slot then some classes else props.slot other := by
  cases slot with
  | none =>
      cases other with
      | none => rfl
      | some b => simp [assign, ResponsiveProps.slot]
  | some b =>
      cases other with
      | none => simp [assign, ResponsiveProps.slot]
      | some c =>
          by_cases hsame : c = b
          · simp [assign, ResponsiveProps.slot, hsame]
          · simp [assign, ResponsiveProps.slot, hsame, get?_set_of_ne _ hsame]

/-- A slot holds what it was given last. -/
theorem slot_assigned (given : List (Option Breakpoint × String)) (slot : Option Breakpoint) :
    (assigned given).slot slot = given.reverse.lookup slot := by
  induction given using List.reverseRecOn with
  | nil => rcases slot with _ | (_ | _) <;> rfl
  | append_singleton rest entry ih =>
      obtain ⟨other, classes⟩ := entry
      have hstep : assigned (rest ++ [(other, classes)]) = (assigned rest).assign (other, classes) := by
        simp [assigned]
      rw [hstep, slot_assign, ih, List.reverse_append, List.reverse_singleton, List.singleton_append,
        List.lookup_cons]
      by_cases hsame : slot = other
      · simp [hsame]
      · simp [hsame, beq_false_of_ne hsame]

end Assigned

section Merged

variable (props : ResponsiveProps)

/-- The classes of all breakpoints, from the narrowest to the widest. -/
def breakpointTokens : List (List Char) := Breakpoint.all.flatMap props.prefixedTokens

theorem ne_nil_and_not_mem_of_mem_breakpointTokens {token : List Char}
    (htoken : token ∈ props.breakpointTokens) : token ≠ [] ∧ ' ' ∉ token := by
  obtain ⟨b, _, hmem⟩ := List.mem_flatMap.mp htoken
  obtain ⟨plain, hplain, rfl⟩ := List.mem_map.mp hmem
  obtain ⟨hne, hspace⟩ := ne_nil_and_not_mem_of_mem_tokens hplain
  exact ⟨by simp [hne], by simp [b.not_mem_variant, hspace]⟩

theorem isSpaced_joined_breakpointTokens (hne : props.breakpointTokens ≠ []) :
    IsSpaced (joined props.breakpointTokens) :=
  isSpaced_joined hne fun _ => props.ne_nil_and_not_mem_of_mem_breakpointTokens

/-- Without a class list of the element the merged list consists of the classes of the breakpoints. -/
theorem toList_merged_of_empty (hbase : (props.className.getD "").toList = []) :
    props.merged.toList = joined props.breakpointTokens := by
  rw [merged, String.toList_ofList, pieces, hbase]
  rfl

/-- Behind a class list of the element the classes of the breakpoints stand after a space, if there are any. -/
theorem toList_merged_of_ne (hbase : (props.className.getD "").toList ≠ []) :
    props.merged.toList = (props.className.getD "").toList ++
      if props.breakpointTokens = [] then [] else ' ' :: joined props.breakpointTokens := by
  rw [merged, String.toList_ofList, pieces, ← breakpointTokens]
  have hfilter : [(props.className.getD "").toList].filter (!·.isEmpty) =
      [(props.className.getD "").toList] := by simpa using hbase
  rw [hfilter, List.singleton_append]
  cases props.breakpointTokens with
  | nil => simp [joined]
  | cons token rest => simp [joined]

theorem breakpointTokens_eq_nil_iff :
    props.breakpointTokens = [] ↔ ∀ b, ∀ c ∈ ((props.get? b).getD "").toList, c = ' ' := by
  simp [breakpointTokens, List.flatMap_eq_nil_iff, prefixedTokens, tokensWith, tokens_eq_nil_iff]

theorem merged_eq_nil_iff :
    props.merged.toList = [] ↔
      (props.className.getD "").toList = [] ∧ ∀ b, ∀ c ∈ ((props.get? b).getD "").toList, c = ' ' := by
  rw [← breakpointTokens_eq_nil_iff]
  by_cases hbase : (props.className.getD "").toList = []
  · rw [toList_merged_of_empty props hbase, and_iff_right hbase]
    constructor
    · intro hempty
      by_contra hne
      exact (props.isSpaced_joined_breakpointTokens hne).ne_nil hempty
    · intro hnone
      rw [hnone, joined]
  · rw [toList_merged_of_ne props hbase]
    simp [hbase]

end Merged

/-- Whatever class lists were given and in whatever order, the merged list has the classes of the element's
last one, and then those of each breakpoint's last one behind its variant. It begins with the class
list of the element as it is, and behind that the classes have one space in front of each. -/
theorem merged_assigned (given : List (Option Breakpoint × String)) :
    let value := fun slot => ((given.reverse.lookup slot).getD "").toList
    let merged := (assigned given).merged.toList
    words merged = words (value none) ++
        [(Breakpoint.sm, "sm:"), (.md, "md:"), (.lg, "lg:"), (.xl, "xl:"), (.xxl, "2xl:")].flatMap
          (fun (b, variant) => (words (value (some b))).map (variant.toList ++ ·)) ∧
      (∃ behind, merged = value none ++ behind ∧
        (value none ≠ [] → behind = [] ∨ ∃ text, behind = ' ' :: text ∧ IsSpaced text) ∧
        (value none = [] → behind = [] ∨ IsSpaced behind)) ∧
      (merged = [] ↔ value none = [] ∧ ∀ b, ∀ c ∈ value (some b), c = ' ') := by
  intro value merged
  have hbase : ((assigned given).className.getD "").toList = value none := by
    rw [show (assigned given).className = (assigned given).slot none from rfl, slot_assigned]
  have hbreakpoint : ∀ b, (((assigned given).get? b).getD "").toList = value (some b) := by
    intro b
    rw [show (assigned given).get? b = (assigned given).slot (some b) from rfl, slot_assigned]
  refine ⟨?_, ?_, ?_⟩
  · simp only [← tokens_eq_words, merged, tokens_merged, hbase, Breakpoint.all, List.flatMap_cons,
      List.flatMap_nil, prefixedTokens, tokensWith, hbreakpoint]
    rfl
  · by_cases hempty : value none = []
    · refine ⟨merged, by rw [hempty, List.nil_append], fun hne => absurd hempty hne, fun _ => ?_⟩
      have hmerged : merged = _ := toList_merged_of_empty _ (hbase.trans hempty)
      rw [hmerged]
      by_cases hnone : (assigned given).breakpointTokens = []
      · exact Or.inl (by rw [hnone, joined])
      · exact Or.inr (isSpaced_joined_breakpointTokens _ hnone)
    · have hmerged : merged = _ := toList_merged_of_ne _ (hbase ▸ hempty)
      rw [hbase] at hmerged
      refine ⟨_, hmerged, fun _ => ?_, fun hnil => absurd hnil hempty⟩
      by_cases hnone : (assigned given).breakpointTokens = []
      · exact Or.inl (if_pos hnone)
      · exact Or.inr ⟨_, if_neg hnone, isSpaced_joined_breakpointTokens _ hnone⟩
  · have hiff := merged_eq_nil_iff (assigned given)
    simpa only [hbase, hbreakpoint] using hiff

end ResponsiveProps

end BreakpointProps
