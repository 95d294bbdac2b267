import Mathlib.Algebra.Ring.Int.Defs
import Mathlib.Data.List.Induction
import Mathlib.Data.String.Basic
import BreakpointProps.Json.Tree

/-!
JSON values by their parts: the numbers in a value, how deep it is, and its text with some blanks between the
tokens. The text on one line and the text with a line for each part are two ways to choose the blanks.
-/

namespace BreakpointProps.Json

/-- What holds of a value if it holds of its items and of what its members have holds of every value. -/
theorem partsInduction {motive : Json → Prop} (null : motive .null) (bool : ∀ b, motive (.bool b))
    (number : ∀ n, motive (.number n)) (string : ∀ s, motive (.string s))
    (array : ∀ items, (∀ item ∈ items, motive item) → motive (.array items))
    (object : ∀ members, (∀ m ∈ members, motive m.2) → motive (.object members)) : ∀ value, motive value
  | .null => null
  | .bool b => bool b
  | .number n => number n
  | .string s => string s
  | .array items => array items fun item _ => partsInduction null bool number string array object item
  | .object members => object members fun m hm =>
      have := List.sizeOf_lt_of_mem hm
      partsInduction null bool number string array object m.2
termination_by value => value
decreasing_by
  all_goals simp_wf
  · have := List.sizeOf_lt_of_mem ‹_ ∈ items›
    omega
  · obtain ⟨name, value⟩ := m
    simp at this ⊢
    omega

section Measures

mutual

/-- The numbers in a value. -/
def numbers : Json → List Number
  | number n => [n]
  | array items => numbersOfItems items
  | object members => numbersOfMembers members
  | _ => []

/-- The numbers in items. -/
def numbersOfItems : List Json → List Number
  | [] => []
  | item :: rest => numbers item ++ numbersOfItems rest

/-- The numbers in members. -/
def numbersOfMembers : List (String × Json) → List Number
  | [] => []
  | (_, value) :: rest => numbers value ++ numbersOfMembers rest

end

theorem mem_numbersOfItems {n : Number} {items : List Json} :
    n ∈ numbersOfItems items ↔ ∃ item ∈ items, n ∈ item.numbers := by
  induction items with
  | nil => simp [numbersOfItems]
  | cons item rest ih => rw [numbersOfItems, List.mem_append, ih, List.exists_mem_cons_iff]

theorem mem_numbersOfMembers {n : Number} {members : List (String × Json)} :
    n ∈ numbersOfMembers members ↔ ∃ m ∈ members, n ∈ m.2.numbers := by
  induction members with
  | nil => simp [numbersOfMembers]
  | cons m rest ih => rw [numbersOfMembers, List.mem_append, ih, List.exists_mem_cons_iff]

/-- Is it a whole number that fits into 64 bits, with or without a sign? -/
def Number.IsWhole : Number → Prop
  | .int n => -2 ^ 63 ≤ n ∧ n < 2 ^ 64
  | .double _ => False

/-- Are there no numbers in the value but whole ones of 64 bits? -/
def HasWholeNumbers (value : Json) : Prop := ∀ n ∈ value.numbers, n.IsWhole

theorem hasWholeNumbers_array {items : List Json} :
    (array items).HasWholeNumbers ↔ ∀ item ∈ items, item.HasWholeNumbers := by
  simp only [HasWholeNumbers, numbers, mem_numbersOfItems]
  exact ⟨fun h item hitem n hn => h n ⟨item, hitem, hn⟩, fun h n ⟨item, hitem, hn⟩ => h item hitem n hn⟩

theorem hasWholeNumbers_object {members : List (String × Json)} :
    (object members).HasWholeNumbers ↔ ∀ m ∈ members, m.2.HasWholeNumbers := by
  simp only [HasWholeNumbers, numbers, mem_numbersOfMembers]
  exact ⟨fun h m hm n hn => h n ⟨m, hm, hn⟩, fun h n ⟨m, hm, hn⟩ => h m hm n hn⟩

mutual

/-- How many arrays and objects stand within each other. -/
def depth : Json → Nat
  | array items => depthOfItems items + 1
  | object members => depthOfMembers members + 1
  | _ => 0

/-- How many arrays and objects stand within each other in one of the items. -/
def depthOfItems : List Json → Nat
  | [] => 0
  | item :: rest => max (depth item) (depthOfItems rest)

/-- How many arrays and objects stand within each other in one of the members. -/
def depthOfMembers : List (String × Json) → Nat
  | [] => 0
  | (_, value) :: rest => max (depth value) (depthOfMembers rest)

end

theorem depthOfItems_le_iff {items : List Json} {bound : Nat} :
    depthOfItems items ≤ bound ↔ ∀ item ∈ items, item.depth ≤ bound := by
  induction items with
  | nil => simp [depthOfItems]
  | cons item rest ih => rw [depthOfItems, max_le_iff, ih, List.forall_mem_cons]

theorem depthOfMembers_le_iff {members : List (String × Json)} {bound : Nat} :
    depthOfMembers members ≤ bound ↔ ∀ m ∈ members, m.2.depth ≤ bound := by
  induction members with
  | nil => simp [depthOfMembers]
  | cons m rest ih => rw [depthOfMembers, max_le_iff, ih, List.forall_mem_cons]

end Measures

section Spacing

/-- The blanks between the tokens of a text. -/
structure Spacing where
  /-- In front of an item, a member or a closing bracket at a level. -/
  line : Nat → List Char
  /-- Behind a colon. -/
  gap : List Char
  isBlank_line : ∀ level, ∀ c ∈ line level, Cursor.isBlank c = true
  isBlank_gap : ∀ c ∈ gap, Cursor.isBlank c = true

namespace Spacing

/-- No blanks. -/
def none : Spacing where
  line _ := []
  gap := []
  isBlank_line _ _ hc := absurd hc List.not_mem_nil
  isBlank_gap _ hc := absurd hc List.not_mem_nil

/-- A line for each item and each member. -/
def lines : Spacing where
  line := newLine
  gap := [' ']
  isBlank_line level c hc := by
    rcases List.mem_cons.mp hc with rfl | hspace
    · rfl
    · rw [List.eq_of_mem_replicate hspace]
      rfl
  isBlank_gap c hc := by
    rw [List.mem_singleton.mp hc]
    rfl

mutual

/-- The characters of a value with these blanks. -/
def chars (spacing : Spacing) (level : Nat) : Json → List Char
  | .null => "null".toList
  | .bool b => if b then "true".toList else "false".toList
  | .number n => n.text.toList
  | .string s => (quoted s).toList
  | .array [] => ['[', ']']
  | .array (item :: rest) =>
    '[' :: (spacing.line (level + 1) ++ (chars spacing (level + 1) item ++
      (moreItems spacing (level + 1) rest ++ (spacing.line level ++ [']']))))
  | .object [] => ['{', '}']
  | .object ((name, value) :: rest) =>
    '{' :: (spacing.line (level + 1) ++ ((quoted name).toList ++ ':' :: (spacing.gap ++
      (chars spacing (level + 1) value ++ (moreMembers spacing (level + 1) rest ++
        (spacing.line level ++ ['}']))))))

/-- Further items, each after a comma. -/
def moreItems (spacing : Spacing) (level : Nat) : List Json → List Char
  | [] => []
  | item :: rest =>
    ',' :: (spacing.line level ++ (chars spacing level item ++ moreItems spacing level rest))

/-- Further members, each after a comma. -/
def moreMembers (spacing : Spacing) (level : Nat) : List (String × Json) → List Char
  | [] => []
  | (name, value) :: rest =>
    ',' :: (spacing.line level ++ ((quoted name).toList ++ ':' :: (spacing.gap ++
      (chars spacing level value ++ moreMembers spacing level rest))))

end

/-- The text of a value with these blanks. -/
def text (spacing : Spacing) (value : Json) : String := String.ofList (spacing.chars 0 value)

theorem prettyItems_eq {level : Nat} {items : List Json}
    (hitems : ∀ i ∈ items, i.prettyChars level = lines.chars level i) :
    prettyItems level items = lines.moreItems level items := by
  induction items with
  | nil => rfl
  | cons item rest ih =>
      rw [prettyItems, moreItems, hitems item List.mem_cons_self,
        ih fun i hi => hitems i (List.mem_cons_of_mem item hi)]
      simp [lines]

theorem prettyMembers_eq {level : Nat} {members : List (String × Json)}
    (hmembers : ∀ m ∈ members, m.2.prettyChars level = lines.chars level m.2) :
    prettyMembers level members = lines.moreMembers level members := by
  induction members with
  | nil => rfl
  | cons m rest ih =>
      rw [prettyMembers, moreMembers, hmembers m List.mem_cons_self,
        ih fun m hm => hmembers m (List.mem_cons_of_mem _ hm)]
      simp [lines]

theorem prettyChars_eq (level : Nat) (value : Json) : value.prettyChars level = lines.chars level value := by
  induction value using partsInduction generalizing level with
  | null => rfl
  | bool b => rfl
  | number n => rfl
  | string s => rfl
  | array items ih =>
      cases items with
      | nil => rfl
      | cons item rest =>
          have hitems := List.forall_mem_cons.mp fun i hi => ih i hi (level + 1)
          rw [prettyChars, chars, hitems.1, prettyItems_eq hitems.2]
          simp [lines]
  | object members ih =>
      cases members with
      | nil => rfl
      | cons m rest =>
          have hmembers := List.forall_mem_cons.mp fun m hm => ih m hm (level + 1)
          rw [prettyChars, chars, hmembers.1, prettyMembers_eq hmembers.2]
          simp [lines]

theorem compactItems_eq {level : Nat} {item : Json} {rest : List Json}
    (hitems : ∀ i ∈ item :: rest, i.compactChars = none.chars level i) :
    compactItems (item :: rest) = none.chars level item ++ none.moreItems level rest := by
  induction rest generalizing item with
  | nil => rw [compactItems, moreItems, hitems item List.mem_cons_self, List.append_nil]
  | cons next rest ih =>
      rw [compactItems, moreItems, hitems item List.mem_cons_self,
        ih fun i hi => hitems i (List.mem_cons_of_mem item hi)]
      · rfl
      · exact nofun

theorem compactMembers_eq {level : Nat} {name : String} {value : Json} {rest : List (String × Json)}
    (hmembers : ∀ m ∈ (name, value) :: rest, m.2.compactChars = none.chars level m.2) :
    compactMembers ((name, value) :: rest) =
      (quoted name).toList ++ ':' :: (none.chars level value ++ none.moreMembers level rest) := by
  induction rest generalizing name value with
  | nil => rw [compactMembers, moreMembers, hmembers _ List.mem_cons_self, List.append_nil]
  | cons next rest ih =>
      rw [compactMembers, moreMembers, hmembers _ List.mem_cons_self,
        ih fun m hm => hmembers m (List.mem_cons_of_mem _ hm)]
      · simp [none]
      · exact nofun

theorem compactChars_eq (level : Nat) (value : Json) : value.compactChars = none.chars level value := by
  induction value using partsInduction generalizing level with
  | null => rfl
  | bool b => rfl
  | number n => rfl
  | string s => rfl
  | array items ih =>
      cases items with
      | nil => rfl
      | cons item rest =>
          rw [compactChars, chars, compactItems_eq fun i hi => ih i hi (level + 1)]
          simp [none]
  | object members ih =>
      cases members with
      | nil => rfl
      | cons m rest =>
          rw [compactChars, chars, compactMembers_eq fun m hm => ih m hm (level + 1)]
          simp [none]

/-- The text with a line for each part. -/
theorem pretty_eq (value : Json) : value.pretty = lines.text value := congrArg String.ofList (prettyChars_eq 0 value)

/-- The text on one line. -/
theorem compact_eq (value : Json) : value.compact = none.text value := congrArg String.ofList (compactChars_eq 0 value)

end Spacing

end Spacing

section Sorted

mutual

/-- Are the members of all objects in the order of their names, with no name twice? -/
def IsSorted : Json → Prop
  | array items => AreSortedItems items
  | object members => (members.map Prod.fst).Pairwise (· < ·) ∧ AreSortedMembers members
  | _ => True

/-- Are all items sorted? -/
def AreSortedItems : List Json → Prop
  | [] => True
  | item :: rest => IsSorted item ∧ AreSortedItems rest

/-- Is what the members have sorted? -/
def AreSortedMembers : List (String × Json) → Prop
  | [] => True
  | (_, value) :: rest => IsSorted value ∧ AreSortedMembers rest

end

theorem insertMember_of_lt {name : String} {value : Json} {members : List (String × Json)}
    (hname : ∀ m ∈ members, m.1 < name) : insertMember name value members = members ++ [(name, value)] := by
  induction members with
  | nil => rfl
  | cons m rest ih =>
      obtain ⟨other, held⟩ := m
      rw [List.forall_mem_cons] at hname
      have hdiffer : ¬ (name == other) = true := by simpa using hname.1.ne'
      rw [insertMember, if_neg hdiffer, if_neg hname.1.not_gt, ih hname.2, List.cons_append]

/-- Members in the order of their names stay in their places. -/
theorem sortMembers_of_pairwise {members : List (String × Json)}
    (hsorted : (members.map Prod.fst).Pairwise (· < ·)) : sortMembers members = members := by
  induction members using List.reverseRecOn with
  | nil => rfl
  | append_singleton front m ih =>
      rw [List.map_append, List.pairwise_append] at hsorted
      have hlast : ∀ other ∈ front, other.1 < m.1 := fun other hother =>
        hsorted.2.2 _ (List.mem_map_of_mem hother) _ (List.mem_singleton.mpr rfl)
      rw [sortMembers, List.foldl_append]
      change insertMember m.1 m.2 (sortMembers front) = _
      rw [ih hsorted.1, insertMember_of_lt hlast]

mutual

theorem normalized_of_isSorted : ∀ {value : Json}, value.IsSorted → value.normalized = value
  | .null, _ | .bool _, _ | .number _, _ | .string _, _ => rfl
  | .array items, hsorted => by rw [normalized, normalizedItems_of_areSorted hsorted]
  | .object members, hsorted => by
      rw [normalized, normalizedMembers_of_areSorted hsorted.2, sortMembers_of_pairwise hsorted.1]

theorem normalizedItems_of_areSorted : ∀ {items : List Json}, AreSortedItems items → normalizedItems items = items
  | [], _ => rfl
  | item :: rest, hsorted => by
      rw [normalizedItems, normalized_of_isSorted hsorted.1, normalizedItems_of_areSorted hsorted.2]

theorem normalizedMembers_of_areSorted : ∀ {members : List (String × Json)},
    AreSortedMembers members → normalizedMembers members = members
  | [], _ => rfl
  | (name, value) :: rest, hsorted => by
      rw [normalizedMembers, normalized_of_isSorted hsorted.1, normalizedMembers_of_areSorted hsorted.2]

end

end Sorted

end BreakpointProps.Json
