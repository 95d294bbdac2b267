import Mathlib.Data.List.TakeWhile
import BreakpointProps.Proofs.Json.Literal
import BreakpointProps.Proofs.Json.Value

/-!
A value is read back from its text, with whatever blanks between the tokens, if its numbers are whole ones of
64 bits and it is not too deep. The tree that is read tells the value and keeps where its parts stand.
-/

namespace BreakpointProps.Json

section Blanks

/-- Does a text start with no blank? -/
def StartsToken (text : List Char) : Prop := ∀ c ∈ text.head?, Cursor.isBlank c = false

theorem startsToken_cons {c : Char} (hc : Cursor.isBlank c = false) (text : List Char) : StartsToken (c :: text) := by
  intro d hd
  obtain rfl : c = d := Option.some.inj hd
  exact hc

theorem skipBlanks_append {before text : List Char} (hbefore : ∀ c ∈ before, Cursor.isBlank c = true)
    (htext : StartsToken text) (offset : Nat) :
    (Cursor.mk (before ++ text) offset).skipBlanks = ⟨text, offset + before.length⟩ := by
  rw [Cursor.skipBlanks, Text.takeWhile_append_of_stop hbefore htext, Cursor.skip_append]

theorem skipBlanks_of_startsToken {text : List Char} (htext : StartsToken text) (offset : Nat) :
    (Cursor.mk text offset).skipBlanks = ⟨text, offset⟩ :=
  skipBlanks_append (List.forall_mem_nil _) htext offset

theorem skipBlanks_skipBlanks (cursor : Cursor) : cursor.skipBlanks.skipBlanks = cursor.skipBlanks := by
  obtain ⟨rest, offset⟩ := cursor
  have hsplit : rest = rest.takeWhile Cursor.isBlank ++ rest.dropWhile Cursor.isBlank :=
    List.takeWhile_append_dropWhile.symm
  have hblank : ∀ c ∈ rest.takeWhile Cursor.isBlank, Cursor.isBlank c = true := fun c hc =>
    List.mem_takeWhile_imp hc
  have htoken : StartsToken (rest.dropWhile Cursor.isBlank) := by
    intro c hc
    have hhead := List.head?_dropWhile_not Cursor.isBlank rest
    rw [Option.mem_def.mp hc] at hhead
    simpa using hhead
  rw [hsplit, skipBlanks_append hblank htoken, skipBlanks_of_startsToken htoken]

theorem value_skipBlanks (fuel depth : Nat) (cursor : Cursor) :
    Tree.value (fuel + 1) depth cursor.skipBlanks = Tree.value (fuel + 1) depth cursor := by
  rw [Tree.value, Tree.value, skipBlanks_skipBlanks]

theorem items_skipBlanks (fuel depth : Nat) (first : Bool) (cursor : Cursor) :
    Tree.items (fuel + 1) depth first cursor.skipBlanks = Tree.items (fuel + 1) depth first cursor := by
  unfold Tree.items
  simp only [skipBlanks_skipBlanks]

theorem members_skipBlanks (fuel depth : Nat) (first : Bool) (cursor : Cursor) :
    Tree.members (fuel + 1) depth first cursor.skipBlanks = Tree.members (fuel + 1) depth first cursor := by
  unfold Tree.members
  simp only [skipBlanks_skipBlanks]

end Blanks

section Tells

namespace Tree

mutual

/-- Is the tree a whole reading of a value, wherever its parts stand? -/
inductive Tells : Tree → Json → Prop
  | null (stop : Nat) : Tells (.null stop) .null
  | bool (b : Bool) (stop : Nat) : Tells (.bool b stop) (.bool b)
  | number (n : Number) (start stop : Nat) : Tells (.number n start stop) (.number n)
  | string (s : String) (stop : Nat) : Tells (.string s stop) (.string s)
  | array {items : List (Slot × Tree)} {values : List Json} (start stop : Nat) :
      TellItems items values → Tells (.array start items (.closed stop)) (.array values)
  | object {members : List (Key × Tree)} {fields : List (String × Json)} (start stop : Nat) :
      TellMembers members fields → Tells (.object start members (.closed stop)) (.object fields)

/-- Are the trees whole readings of items? -/
inductive TellItems : List (Slot × Tree) → List Json → Prop
  | nil : TellItems [] []
  | cons {tree : Tree} {value : Json} {items : List (Slot × Tree)} {values : List Json} (slot : Slot) :
      Tells tree value → TellItems items values → TellItems ((slot, tree) :: items) (value :: values)

/-- Are the trees whole readings of members? -/
inductive TellMembers : List (Key × Tree) → List (String × Json) → Prop
  | nil : TellMembers [] []
  | cons {key : Key} {name : String} {tree : Tree} {value : Json} {members : List (Key × Tree)}
      {fields : List (String × Json)} : key.name = .ok name → Tells tree value → TellMembers members fields →
      TellMembers ((key, tree) :: members) ((name, value) :: fields)

end

end Tree

end Tells

section Reading

/-- Is a value read from its text, whatever follows that does not go on with a number? -/
def Spacing.ReadsBack (spacing : Spacing) (value : Json) : Prop :=
  ∀ (level depth fuel offset : Nat) (rest : List Char), EndsNumber rest →
    depth + value.depth ≤ Tree.greatestDepth → 4 * (spacing.chars level value).length ≤ fuel →
    ∃ tree stop, Tree.value fuel depth ⟨spacing.chars level value ++ rest, offset⟩ = (tree, some ⟨rest, stop⟩) ∧
      tree.Tells value

theorem endsNumber_of_not_mem {c : Char} (hdigit : c.isDigit = false) (hc : c ∉ ['.', 'e', 'E'])
    (rest : List Char) : EndsNumber (c :: rest) := by
  intro d hd
  obtain rfl : c = d := Option.some.inj hd
  simp only [List.mem_cons, List.not_mem_nil, or_false, not_or] at hc
  exact ⟨hdigit, hc⟩

theorem endsNumber_blanks {before rest : List Char} (hbefore : ∀ c ∈ before, Cursor.isBlank c = true)
    (hrest : EndsNumber rest) : EndsNumber (before ++ rest) := by
  cases before with
  | nil => exact hrest
  | cons c before =>
      have hblank := hbefore c List.mem_cons_self
      simp only [Cursor.isBlank, Bool.or_eq_true, beq_iff_eq] at hblank
      rcases hblank with ((rfl | rfl) | rfl) | rfl <;> exact endsNumber_of_not_mem rfl (by decide) _

variable {spacing : Spacing} {rest : List Char}

/-- What a word spells is read by its letters. -/
theorem word_append (letters rest : List Char) (offset : Nat) :
    Tree.word letters ⟨letters ++ rest, offset⟩ = .ok ⟨rest, offset + letters.length⟩ := by
  induction letters generalizing offset with
  | nil => rfl
  | cons c letters ih =>
      rw [Tree.word]
      simp only [List.cons_append, BEq.rfl, if_true]
      rw [show (Cursor.mk (c :: (letters ++ rest)) offset).skip 1 = ⟨letters ++ rest, offset + 1⟩ from rfl, ih,
        List.length_cons, Nat.add_assoc, Nat.add_comm 1]

/-- Blanks in front of a value count for nothing. -/
theorem value_append {before text : List Char} (hbefore : ∀ c ∈ before, Cursor.isBlank c = true)
    (htext : StartsToken text) (fuel depth offset : Nat) :
    Tree.value (fuel + 1) depth ⟨before ++ text, offset⟩ =
      Tree.value (fuel + 1) depth ⟨text, offset + before.length⟩ := by
  rw [← value_skipBlanks, skipBlanks_append hbefore htext]

theorem ofWord_append (c : Char) (letters rest : List Char) (whole : Nat → Tree) (offset : Nat) :
    Tree.ofWord letters whole ⟨c :: (letters ++ rest), offset⟩ =
      (whole (offset + 1 + letters.length), some ⟨rest, offset + 1 + letters.length⟩) := by
  rw [Tree.ofWord, show (Cursor.mk (c :: (letters ++ rest)) offset).skip 1 = ⟨letters ++ rest, offset + 1⟩ from rfl,
    word_append]

theorem value_null (fuel depth offset : Nat) (rest : List Char) :
    Tree.value (fuel + 1) depth ⟨"null".toList ++ rest, offset⟩ = (.null (offset + 4), some ⟨rest, offset + 4⟩) := by
  change Tree.value (fuel + 1) depth ⟨'n' :: (['u', 'l', 'l'] ++ rest), offset⟩ = _
  rw [Tree.value, skipBlanks_of_startsToken (startsToken_cons rfl _)]
  exact ofWord_append 'n' ['u', 'l', 'l'] rest .null offset

theorem value_true (fuel depth offset : Nat) (rest : List Char) :
    Tree.value (fuel + 1) depth ⟨"true".toList ++ rest, offset⟩ =
      (.bool true (offset + 4), some ⟨rest, offset + 4⟩) := by
  change Tree.value (fuel + 1) depth ⟨'t' :: (['r', 'u', 'e'] ++ rest), offset⟩ = _
  rw [Tree.value, skipBlanks_of_startsToken (startsToken_cons rfl _)]
  exact ofWord_append 't' ['r', 'u', 'e'] rest (.bool true) offset

theorem value_false (fuel depth offset : Nat) (rest : List Char) :
    Tree.value (fuel + 1) depth ⟨"false".toList ++ rest, offset⟩ =
      (.bool false (offset + 5), some ⟨rest, offset + 5⟩) := by
  change Tree.value (fuel + 1) depth ⟨'f' :: (['a', 'l', 's', 'e'] ++ rest), offset⟩ = _
  rw [Tree.value, skipBlanks_of_startsToken (startsToken_cons rfl _)]
  exact ofWord_append 'f' ['a', 'l', 's', 'e'] rest (.bool false) offset

theorem value_string (fuel depth offset : Nat) (text : List Char) :
    Tree.value (fuel + 1) depth ⟨'"' :: text, offset⟩ =
      Tree.literal .string ⟨'"' :: text, offset⟩ (readString ⟨text, offset + 1⟩) (passString ⟨text, offset + 1⟩)
        .string := by
  rw [Tree.value, skipBlanks_of_startsToken (startsToken_cons rfl _)]
  rfl

theorem value_array (fuel depth offset : Nat) (text : List Char) :
    Tree.value (fuel + 1) depth ⟨'[' :: text, offset⟩ =
      let (items, ending, next) := Tree.items fuel (depth + 1) true ⟨text, offset + 1⟩
      (Tree.atDepth depth .array ⟨'[' :: text, offset⟩ (.array offset items ending), next) := by
  rw [Tree.value, skipBlanks_of_startsToken (startsToken_cons rfl _)]
  rfl

theorem value_object (fuel depth offset : Nat) (text : List Char) :
    Tree.value (fuel + 1) depth ⟨'{' :: text, offset⟩ =
      let (members, ending, next) := Tree.members fuel (depth + 1) true ⟨text, offset + 1⟩
      (Tree.atDepth depth .object ⟨'{' :: text, offset⟩ (.object offset members ending), next) := by
  rw [Tree.value, skipBlanks_of_startsToken (startsToken_cons rfl _)]
  rfl

theorem value_minus (fuel depth offset : Nat) (text : List Char) :
    Tree.value (fuel + 1) depth ⟨'-' :: text, offset⟩ =
      Tree.literal .number ⟨'-' :: text, offset⟩ (readNumber true ⟨text, offset + 1⟩) (passNumber ⟨text, offset + 1⟩)
        (Tree.number · offset) := by
  rw [Tree.value, skipBlanks_of_startsToken (startsToken_cons rfl _)]
  rfl

theorem not_isBlank_of_isDigit {c : Char} (hc : c.isDigit = true) : Cursor.isBlank c = false := by
  have hspace := Text.ne_of_isDigit hc (d := ' ') rfl
  have hline := Text.ne_of_isDigit hc (d := '\n') rfl
  have htab := Text.ne_of_isDigit hc (d := '\t') rfl
  have hreturn := Text.ne_of_isDigit hc (d := '\r') rfl
  simp [Cursor.isBlank, hspace, hline, htab, hreturn]

theorem value_digit {c : Char} (hc : c.isDigit = true) (fuel depth offset : Nat) (text : List Char) :
    Tree.value (fuel + 1) depth ⟨c :: text, offset⟩ =
      Tree.literal .number ⟨c :: text, offset⟩ (readNumber false ⟨c :: text, offset⟩)
        (passNumber ⟨c :: text, offset⟩) (Tree.number · offset) := by
  rw [Tree.value, skipBlanks_of_startsToken (startsToken_cons (not_isBlank_of_isDigit hc) _)]
  dsimp only [Cursor.peek?, List.head?_cons]
  split
  all_goals simp_all

theorem exists_fuel {fuel : Nat} {text : List Char} (htext : text ≠ []) (hfuel : 4 * text.length ≤ fuel) :
    ∃ less, fuel = less + 4 ∧ 4 * text.length ≤ less + 4 := by
  have hlength : 0 < text.length := List.length_pos_iff.mpr htext
  exact ⟨fuel - 4, by omega, by omega⟩

theorem readsBack_null : spacing.ReadsBack .null := by
  intro level depth fuel offset rest _ _ hfuel
  obtain ⟨fuel, rfl, -⟩ := exists_fuel (by decide : "null".toList ≠ []) hfuel
  exact ⟨_, _, value_null _ depth offset rest, .null _⟩

theorem readsBack_bool (b : Bool) : spacing.ReadsBack (.bool b) := by
  intro level depth fuel offset rest _ _ hfuel
  cases b with
  | true =>
      obtain ⟨fuel, rfl, -⟩ := exists_fuel (by decide : "true".toList ≠ []) hfuel
      exact ⟨_, _, value_true _ depth offset rest, .bool true _⟩
  | false =>
      obtain ⟨fuel, rfl, -⟩ := exists_fuel (by decide : "false".toList ≠ []) hfuel
      exact ⟨_, _, value_false _ depth offset rest, .bool false _⟩

theorem readsBack_string (s : String) : spacing.ReadsBack (.string s) := by
  intro level depth fuel offset rest _ _ hfuel
  rw [Spacing.chars, toList_quoted] at hfuel ⊢
  obtain ⟨fuel, rfl, -⟩ := exists_fuel (List.cons_ne_nil _ _) hfuel
  obtain ⟨stop, hread, -⟩ := exists_readString_quoted s rest (offset + 1)
  refine ⟨.string s stop, stop, ?_, .string s stop⟩
  rw [List.cons_append, List.append_assoc, List.singleton_append, value_string, hread]
  rfl

/-- The characters of a whole number: digits, behind a sign if it is below zero. -/
theorem toList_text_int (n : Int) :
    (Number.int n).text.toList = if n < 0 then '-' :: Nat.toDigits 10 n.natAbs else Nat.toDigits 10 n.natAbs := by
  cases n with
  | ofNat n => exact Nat.toList_repr
  | negSucc n =>
      rw [if_pos (Int.negSucc_lt_zero n)]
      change ("-" ++ (n + 1).repr).toList = '-' :: Nat.toDigits 10 (n + 1)
      rw [String.toList_append, Nat.toList_repr]
      rfl

theorem readsBack_number {n : Number} (hn : n.IsWhole) : spacing.ReadsBack (.number n) := by
  intro level depth fuel offset rest hrest _ hfuel
  cases n with
  | double x => exact hn.elim
  | int n =>
      obtain ⟨hlow, hhigh⟩ := hn
      rw [Spacing.chars, toList_text_int] at hfuel ⊢
      by_cases hnegative : n < 0
      · rw [if_pos hnegative] at hfuel ⊢
        obtain ⟨fuel, rfl, -⟩ := exists_fuel (List.cons_ne_nil _ _) hfuel
        obtain ⟨stop, hread⟩ :=
          exists_readNumber_toDigits true hrest (n := n.natAbs) (by omega) (fun _ => by omega) (offset + 1)
        rw [if_pos rfl, show -(n.natAbs : Int) = n by omega] at hread
        refine ⟨.number (.int n) offset stop, stop, ?_, .number (.int n) offset stop⟩
        rw [List.cons_append, value_minus, hread]
        rfl
      · rw [if_neg hnegative] at hfuel ⊢
        obtain ⟨stop, hread⟩ := exists_readNumber_toDigits false hrest (n := n.natAbs) (by omega)
          (fun h => absurd h Bool.false_ne_true) offset
        rw [if_neg Bool.false_ne_true, show (n.natAbs : Int) = n by omega] at hread
        obtain ⟨c, more, hmore, hdigit⟩ := Text.exists_toDigits_cons n.natAbs
        rw [hmore] at hfuel hread ⊢
        obtain ⟨fuel, rfl, -⟩ := exists_fuel (List.cons_ne_nil _ _) hfuel
        refine ⟨.number (.int n) offset stop, stop, ?_, .number (.int n) offset stop⟩
        rw [List.cons_append, value_digit hdigit, ← List.cons_append, hread]
        rfl

/-- No value starts with a blank, nor with a bracket that closes. -/
theorem exists_chars_cons (spacing : Spacing) (level : Nat) {value : Json} (hwhole : value.HasWholeNumbers) :
    ∃ c more, spacing.chars level value = c :: more ∧ Cursor.isBlank c = false ∧ c ≠ ']' := by
  cases value with
  | null => exact ⟨'n', _, rfl, rfl, by decide⟩
  | bool b => cases b <;> exact ⟨_, _, rfl, rfl, by decide⟩
  | string s =>
      rw [Spacing.chars, toList_quoted]
      exact ⟨'"', _, rfl, rfl, by decide⟩
  | array items => cases items <;> exact ⟨'[', _, rfl, rfl, by decide⟩
  | object members => cases members <;> exact ⟨'{', _, rfl, rfl, by decide⟩
  | number n =>
      cases n with
      | double x => exact (hwhole _ List.mem_cons_self).elim
      | int n =>
          rw [Spacing.chars, toList_text_int]
          split
          · exact ⟨'-', _, rfl, rfl, by decide⟩
          · obtain ⟨c, more, hmore, hdigit⟩ := Text.exists_toDigits_cons n.natAbs
            exact ⟨c, more, hmore, not_isBlank_of_isDigit hdigit, Text.ne_of_isDigit hdigit rfl⟩

section Items

variable {closing : List Char} {level depth fuel : Nat}

/-- Are items read from a text up to the closing bracket? -/
def ReadsItems (fuel depth : Nat) (first : Bool) (text rest : List Char) (values : List Json) : Prop :=
  ∀ offset, ∃ trees last stop,
    Tree.items fuel depth first ⟨text, offset⟩ = (trees, .closed last, some ⟨rest, stop⟩) ∧ Tree.TellItems trees values

theorem readsItems_close (fuel depth : Nat) (first : Bool) (hclosing : ∀ c ∈ closing, Cursor.isBlank c = true) :
    ReadsItems (fuel + 1) depth first (closing ++ ']' :: rest) rest [] := by
  intro offset
  rw [← items_skipBlanks, skipBlanks_append hclosing (startsToken_cons rfl rest)]
  unfold Tree.items
  rw [skipBlanks_of_startsToken (startsToken_cons rfl rest)]
  exact ⟨_, _, _, rfl, .nil⟩

theorem items_first {c : Char} {more before : List Char} (hbefore : ∀ c ∈ before, Cursor.isBlank c = true)
    (hc : Cursor.isBlank c = false) (hbracket : c ≠ ']') (fuel depth offset : Nat) :
    Tree.items (fuel + 1) depth true ⟨before ++ c :: more, offset⟩ =
      Tree.item fuel depth ⟨c :: more, offset + before.length⟩ := by
  rw [← items_skipBlanks, skipBlanks_append hbefore (startsToken_cons hc more)]
  unfold Tree.items
  rw [skipBlanks_of_startsToken (startsToken_cons hc more)]
  simp [Cursor.peek?]

theorem items_comma {c : Char} {more before : List Char} (hbefore : ∀ c ∈ before, Cursor.isBlank c = true)
    (hc : Cursor.isBlank c = false) (hbracket : c ≠ ']') (fuel depth offset : Nat) :
    Tree.items (fuel + 1) depth false ⟨',' :: (before ++ c :: more), offset⟩ =
      Tree.item fuel depth ⟨c :: more, offset + 1 + before.length⟩ := by
  have hafter : ((Cursor.mk (',' :: (before ++ c :: more)) offset).skip 1).skipBlanks =
      ⟨c :: more, offset + 1 + before.length⟩ := skipBlanks_append hbefore (startsToken_cons hc more) (offset + 1)
  unfold Tree.items
  rw [skipBlanks_of_startsToken (startsToken_cons rfl _)]
  simp [Cursor.peek?, hafter]

/-- What follows an item is a comma, or blanks and the closing bracket. -/
theorem endsNumber_moreItems (hclosing : ∀ c ∈ closing, Cursor.isBlank c = true) (items : List Json) :
    EndsNumber (spacing.moreItems level items ++ (closing ++ ']' :: rest)) := by
  cases items with
  | nil =>
      rw [Spacing.moreItems, List.nil_append]
      exact endsNumber_blanks hclosing (endsNumber_of_not_mem rfl (by decide) rest)
  | cons item items => exact endsNumber_of_not_mem rfl (by decide) _

/-- One item is read, and then the others. -/
theorem exists_item (level fuel : Nat) {item : Json} {others : List Json} {next : List Char}
    (hitem : spacing.ReadsBack item) (hdepth : depth + item.depth ≤ Tree.greatestDepth) (hnext : EndsNumber next)
    (hfuel : 4 * (spacing.chars level item).length ≤ fuel + 1)
    (hothers : ReadsItems (fuel + 1) depth false next rest others) (offset : Nat) :
    ∃ trees last stop, Tree.item (fuel + 2) depth ⟨spacing.chars level item ++ next, offset⟩ =
      (trees, .closed last, some ⟨rest, stop⟩) ∧ Tree.TellItems trees (item :: others) := by
  obtain ⟨tree, between, hread, htells⟩ := hitem level depth (fuel + 1) offset next hnext hdepth hfuel
  obtain ⟨trees, last, stop, hmore, htellsMore⟩ := hothers between
  rw [Tree.item, hread]
  dsimp only
  rw [items_skipBlanks, hmore]
  exact ⟨_, _, _, rfl, .cons _ htells htellsMore⟩

theorem readsItems_moreItems (level fuel : Nat) (rest : List Char) {items : List Json}
    (hclosing : ∀ c ∈ closing, Cursor.isBlank c = true)
    (hwhole : ∀ item ∈ items, item.HasWholeNumbers) (hitems : ∀ item ∈ items, spacing.ReadsBack item)
    (hdepth : ∀ item ∈ items, depth + item.depth ≤ Tree.greatestDepth)
    (hfuel : 4 * (spacing.moreItems level items).length ≤ fuel) :
    ReadsItems (fuel + 1) depth false (spacing.moreItems level items ++ (closing ++ ']' :: rest)) rest items := by
  induction items generalizing fuel with
  | nil => exact readsItems_close fuel depth false hclosing
  | cons item others ih =>
      intro offset
      obtain ⟨hwholeItem, hwhole⟩ := List.forall_mem_cons.mp hwhole
      obtain ⟨hitem, hitems⟩ := List.forall_mem_cons.mp hitems
      obtain ⟨hdepthItem, hdepth⟩ := List.forall_mem_cons.mp hdepth
      obtain ⟨c, more, hchars, hblank, hbracket⟩ := exists_chars_cons spacing level hwholeItem
      rw [Spacing.moreItems, List.length_cons, List.length_append, List.length_append] at hfuel
      obtain ⟨fuel, rfl⟩ : ∃ less, fuel = less + 2 := ⟨fuel - 2, by omega⟩
      have hall := exists_item level fuel hitem hdepthItem (endsNumber_moreItems hclosing others) (by omega)
        (ih fuel hwhole hitems hdepth (by omega)) (offset + 1 + (spacing.line level).length)
      rw [hchars, List.cons_append] at hall
      rw [Spacing.moreItems, List.cons_append, List.append_assoc, List.append_assoc, hchars, List.cons_append,
        items_comma (spacing.isBlank_line level) hblank hbracket]
      exact hall

/-- The items of an array are read from behind its opening bracket. -/
theorem exists_readsItems (level fuel : Nat) (rest : List Char) {items : List Json}
    (hwhole : ∀ item ∈ items, item.HasWholeNumbers) (hitems : ∀ item ∈ items, spacing.ReadsBack item)
    (hdepths : ∀ item ∈ items, depth + item.depth ≤ Tree.greatestDepth)
    (hfuel : 4 * (spacing.chars level (.array items)).length ≤ fuel + 4) :
    ∃ text, spacing.chars level (.array items) ++ rest = '[' :: text ∧
      ReadsItems (fuel + 3) depth true text rest items := by
  cases items with
  | nil => exact ⟨']' :: rest, rfl, readsItems_close _ _ true (List.forall_mem_nil _)⟩
  | cons item others =>
      obtain ⟨hwholeItem, hwhole⟩ := List.forall_mem_cons.mp hwhole
      obtain ⟨hitem, hitems⟩ := List.forall_mem_cons.mp hitems
      obtain ⟨hdepthItem, hdepths⟩ := List.forall_mem_cons.mp hdepths
      obtain ⟨c, more, hfirst, hblank, hbracket⟩ := exists_chars_cons spacing (level + 1) hwholeItem
      rw [Spacing.chars] at hfuel ⊢
      simp only [List.length_cons, List.length_append] at hfuel
      refine ⟨spacing.line (level + 1) ++ (spacing.chars (level + 1) item ++
        (spacing.moreItems (level + 1) others ++ (spacing.line level ++ ']' :: rest))), by simp, fun offset => ?_⟩
      have hmore := readsItems_moreItems (level + 1) fuel rest (spacing.isBlank_line level) hwhole hitems hdepths
        (by omega)
      have hall := exists_item (level + 1) fuel hitem hdepthItem
        (endsNumber_moreItems (spacing.isBlank_line level) others) (by omega) hmore
        (offset + (spacing.line (level + 1)).length)
      rw [hfirst, List.cons_append] at hall ⊢
      rw [items_first (spacing.isBlank_line (level + 1)) hblank hbracket]
      exact hall

theorem readsBack_array {items : List Json} (hwhole : ∀ item ∈ items, item.HasWholeNumbers)
    (hitems : ∀ item ∈ items, spacing.ReadsBack item) : spacing.ReadsBack (.array items) := by
  intro level depth fuel offset rest _ hdepth hfuel
  obtain ⟨fuel, rfl, hfuel⟩ := exists_fuel (by cases items <;> simp [Spacing.chars]) hfuel
  rw [Json.depth] at hdepth
  have hshallow : depth < Tree.greatestDepth := by omega
  have hdepths : ∀ item ∈ items, depth + 1 + item.depth ≤ Tree.greatestDepth := fun item hitem => by
    have := depthOfItems_le_iff.mp (Nat.le_refl _) item hitem
    omega
  obtain ⟨text, hchars, hread⟩ := exists_readsItems level fuel rest hwhole hitems hdepths hfuel
  obtain ⟨trees, last, stop, hitems, htells⟩ := hread (offset + 1)
  refine ⟨.array offset trees (.closed last), stop, ?_, .array offset last htells⟩
  rw [hchars, value_array, hitems]
  dsimp only
  rw [Tree.atDepth, if_pos hshallow]

end Items

section Members

variable {closing : List Char} {level depth fuel : Nat}

/-- Are members read from a text up to the closing bracket? -/
def ReadsMembers (fuel depth : Nat) (first : Bool) (text rest : List Char) (fields : List (String × Json)) : Prop :=
  ∀ offset, ∃ trees last stop,
    Tree.members fuel depth first ⟨text, offset⟩ = (trees, .closed last, some ⟨rest, stop⟩) ∧
      Tree.TellMembers trees fields

theorem readsMembers_close (fuel depth : Nat) (first : Bool) (hclosing : ∀ c ∈ closing, Cursor.isBlank c = true) :
    ReadsMembers (fuel + 1) depth first (closing ++ '}' :: rest) rest [] := by
  intro offset
  rw [← members_skipBlanks, skipBlanks_append hclosing (startsToken_cons rfl rest)]
  unfold Tree.members
  rw [skipBlanks_of_startsToken (startsToken_cons rfl rest)]
  exact ⟨_, _, _, rfl, .nil⟩

theorem members_first {more before : List Char} (hbefore : ∀ c ∈ before, Cursor.isBlank c = true)
    (fuel depth offset : Nat) :
    Tree.members (fuel + 1) depth true ⟨before ++ '"' :: more, offset⟩ =
      Tree.member fuel depth ⟨more, offset + before.length + 1⟩ := by
  rw [← members_skipBlanks, skipBlanks_append hbefore (startsToken_cons rfl more)]
  unfold Tree.members
  rw [skipBlanks_of_startsToken (startsToken_cons rfl more)]
  rfl

theorem members_comma {more before : List Char} (hbefore : ∀ c ∈ before, Cursor.isBlank c = true)
    (fuel depth offset : Nat) :
    Tree.members (fuel + 1) depth false ⟨',' :: (before ++ '"' :: more), offset⟩ =
      Tree.member fuel depth ⟨more, offset + 1 + before.length + 1⟩ := by
  have hafter : ((Cursor.mk (',' :: (before ++ '"' :: more)) offset).skip 1).skipBlanks =
      ⟨'"' :: more, offset + 1 + before.length⟩ := skipBlanks_append hbefore (startsToken_cons rfl more) (offset + 1)
  unfold Tree.members
  rw [skipBlanks_of_startsToken (startsToken_cons rfl _)]
  dsimp only [Cursor.peek?, List.head?_cons]
  rw [hafter]
  rfl

/-- What follows a member is a comma, or blanks and the closing bracket. -/
theorem endsNumber_moreMembers (hclosing : ∀ c ∈ closing, Cursor.isBlank c = true) (fields : List (String × Json)) :
    EndsNumber (spacing.moreMembers level fields ++ (closing ++ '}' :: rest)) := by
  cases fields with
  | nil =>
      rw [Spacing.moreMembers, List.nil_append]
      exact endsNumber_blanks hclosing (endsNumber_of_not_mem rfl (by decide) rest)
  | cons field fields => exact endsNumber_of_not_mem rfl (by decide) _

/-- The characters of a member from behind the opening quote of its name. -/
def Spacing.memberChars (spacing : Spacing) (level : Nat) (field : String × Json) (next : List Char) : List Char :=
  field.1.toList.flatMap escaped ++ '"' :: ':' :: (spacing.gap ++ (spacing.chars level field.2 ++ next))

theorem quoted_append_eq_memberChars (level : Nat) (field : String × Json) (next : List Char) :
    (quoted field.1).toList ++ ':' :: (spacing.gap ++ (spacing.chars level field.2 ++ next)) =
      '"' :: spacing.memberChars level field next := by
  rw [toList_quoted, List.cons_append, List.append_assoc, List.singleton_append, Spacing.memberChars]

/-- One member is read, and then the others. -/
theorem exists_member (level fuel : Nat) {field : String × Json} {others : List (String × Json)} {next : List Char}
    (hwhole : field.2.HasWholeNumbers) (hfield : spacing.ReadsBack field.2)
    (hdepth : depth + field.2.depth ≤ Tree.greatestDepth) (hnext : EndsNumber next)
    (hfuel : 4 * (spacing.chars level field.2).length ≤ fuel + 1)
    (hothers : ReadsMembers (fuel + 1) depth false next rest others) (offset : Nat) :
    ∃ trees last stop, Tree.member (fuel + 2) depth ⟨spacing.memberChars level field next, offset⟩ =
      (trees, .closed last, some ⟨rest, stop⟩) ∧ Tree.TellMembers trees (field :: others) := by
  obtain ⟨name, value⟩ := field
  obtain ⟨afterName, hname, hpass⟩ := exists_readString_quoted name
    (':' :: (spacing.gap ++ (spacing.chars level value ++ next))) offset
  have htoken : StartsToken (spacing.chars level value ++ next) := by
    obtain ⟨c, more, hchars, hblank, -⟩ := exists_chars_cons spacing level hwhole
    rw [hchars]
    exact startsToken_cons hblank _
  obtain ⟨tree, between, hread, htells⟩ :=
    hfield level depth (fuel + 1) (afterName + 1 + spacing.gap.length) next hnext hdepth hfuel
  obtain ⟨trees, last, stop, hmore, htellsMore⟩ := hothers between
  have hcolon : (Cursor.mk (':' :: (spacing.gap ++ (spacing.chars level value ++ next))) afterName).skip 1 =
      ⟨spacing.gap ++ (spacing.chars level value ++ next), afterName + 1⟩ := rfl
  rw [Spacing.memberChars, Tree.member, hpass, hname]
  dsimp only [Except.map]
  rw [skipBlanks_of_startsToken (startsToken_cons rfl _)]
  dsimp only [Cursor.peek?, List.head?_cons]
  rw [hcolon, value_append spacing.isBlank_gap htoken, hread]
  dsimp only
  rw [members_skipBlanks, hmore]
  exact ⟨_, _, _, rfl, .cons rfl htells htellsMore⟩

theorem readsMembers_moreMembers (level fuel : Nat) (rest : List Char) {fields : List (String × Json)}
    (hclosing : ∀ c ∈ closing, Cursor.isBlank c = true) (hwhole : ∀ m ∈ fields, m.2.HasWholeNumbers)
    (hfields : ∀ m ∈ fields, spacing.ReadsBack m.2)
    (hdepth : ∀ m ∈ fields, depth + m.2.depth ≤ Tree.greatestDepth)
    (hfuel : 4 * (spacing.moreMembers level fields).length ≤ fuel) :
    ReadsMembers (fuel + 1) depth false (spacing.moreMembers level fields ++ (closing ++ '}' :: rest)) rest fields := by
  induction fields generalizing fuel with
  | nil => exact readsMembers_close fuel depth false hclosing
  | cons field others ih =>
      intro offset
      obtain ⟨hwholeField, hwhole⟩ := List.forall_mem_cons.mp hwhole
      obtain ⟨hfield, hfields⟩ := List.forall_mem_cons.mp hfields
      obtain ⟨hdepthField, hdepth⟩ := List.forall_mem_cons.mp hdepth
      simp only [Spacing.moreMembers, List.length_cons, List.length_append] at hfuel
      obtain ⟨fuel, rfl⟩ : ∃ less, fuel = less + 2 := ⟨fuel - 2, by omega⟩
      have htext : spacing.moreMembers level (field :: others) ++ (closing ++ '}' :: rest) =
          ',' :: (spacing.line level ++ '"' :: spacing.memberChars level field
            (spacing.moreMembers level others ++ (closing ++ '}' :: rest))) := by
        rw [← quoted_append_eq_memberChars]
        simp [Spacing.moreMembers]
      rw [htext, members_comma (spacing.isBlank_line level)]
      exact exists_member level fuel hwholeField hfield hdepthField (endsNumber_moreMembers hclosing others) (by omega)
        (ih fuel hwhole hfields hdepth (by omega)) _

/-- The members of an object are read from behind its opening bracket. -/
theorem exists_readsMembers (level fuel : Nat) (rest : List Char) {fields : List (String × Json)}
    (hwhole : ∀ m ∈ fields, m.2.HasWholeNumbers) (hfields : ∀ m ∈ fields, spacing.ReadsBack m.2)
    (hdepths : ∀ m ∈ fields, depth + m.2.depth ≤ Tree.greatestDepth)
    (hfuel : 4 * (spacing.chars level (.object fields)).length ≤ fuel + 4) :
    ∃ text, spacing.chars level (.object fields) ++ rest = '{' :: text ∧
      ReadsMembers (fuel + 3) depth true text rest fields := by
  cases fields with
  | nil => exact ⟨'}' :: rest, rfl, readsMembers_close _ _ true (List.forall_mem_nil _)⟩
  | cons field others =>
      obtain ⟨hwholeField, hwhole⟩ := List.forall_mem_cons.mp hwhole
      obtain ⟨hfield, hfields⟩ := List.forall_mem_cons.mp hfields
      obtain ⟨hdepthField, hdepths⟩ := List.forall_mem_cons.mp hdepths
      simp only [Spacing.chars, List.length_cons, List.length_append] at hfuel
      refine ⟨spacing.line (level + 1) ++ '"' :: spacing.memberChars (level + 1) field
        (spacing.moreMembers (level + 1) others ++ (spacing.line level ++ '}' :: rest)), ?_, fun offset => ?_⟩
      · rw [← quoted_append_eq_memberChars]
        simp [Spacing.chars]
      · have hmore := readsMembers_moreMembers (level + 1) fuel rest (spacing.isBlank_line level) hwhole hfields
          hdepths (by omega)
        rw [members_first (spacing.isBlank_line (level + 1))]
        exact exists_member (level + 1) fuel hwholeField hfield hdepthField
          (endsNumber_moreMembers (spacing.isBlank_line level) others) (by omega) hmore _

theorem readsBack_object {fields : List (String × Json)} (hwhole : ∀ m ∈ fields, m.2.HasWholeNumbers)
    (hfields : ∀ m ∈ fields, spacing.ReadsBack m.2) : spacing.ReadsBack (.object fields) := by
  intro level depth fuel offset rest _ hdepth hfuel
  obtain ⟨fuel, rfl, hfuel⟩ := exists_fuel (by cases fields <;> simp [Spacing.chars]) hfuel
  rw [Json.depth] at hdepth
  have hshallow : depth < Tree.greatestDepth := by omega
  have hdepths : ∀ m ∈ fields, depth + 1 + m.2.depth ≤ Tree.greatestDepth := fun m hm => by
    have := depthOfMembers_le_iff.mp (Nat.le_refl _) m hm
    omega
  obtain ⟨text, hchars, hread⟩ := exists_readsMembers level fuel rest hwhole hfields hdepths hfuel
  obtain ⟨trees, last, stop, hmembers, htells⟩ := hread (offset + 1)
  refine ⟨.object offset trees (.closed last), stop, ?_, .object offset last htells⟩
  rw [hchars, value_object, hmembers]
  dsimp only
  rw [Tree.atDepth, if_pos hshallow]

end Members

/-- A value with whole numbers only is read from its text. -/
theorem readsBack (spacing : Spacing) {value : Json} (hwhole : value.HasWholeNumbers) :
    spacing.ReadsBack value := by
  induction value using partsInduction with
  | null => exact readsBack_null
  | bool b => exact readsBack_bool b
  | number n => exact readsBack_number (hwhole n List.mem_cons_self)
  | string s => exact readsBack_string s
  | array items ih =>
      have hitems := hasWholeNumbers_array.mp hwhole
      exact readsBack_array hitems fun item hitem => ih item hitem (hitems item hitem)
  | object fields ih =>
      have hfields := hasWholeNumbers_object.mp hwhole
      exact readsBack_object hfields fun m hm => ih m hm (hfields m hm)

end Reading

/-- The reading of a value's text tells the value, and nothing stands behind it. -/
theorem read_text (spacing : Spacing) {value : Json} (hwhole : value.HasWholeNumbers)
    (hdepth : value.depth ≤ Tree.greatestDepth) :
    (read (spacing.text value)).tree.Tells value ∧ (read (spacing.text value)).trailing = none := by
  obtain ⟨tree, stop, hread, htells⟩ := readsBack spacing hwhole 0 0 (4 * (spacing.chars 0 value).length + 8) 0 []
    (fun _ hc => nomatch hc) (by omega) (by omega)
  rw [List.append_nil] at hread
  have hcursor : Cursor.ofText (spacing.text value) = ⟨spacing.chars 0 value, 0⟩ := by
    rw [Cursor.ofText, Spacing.text, String.toList_ofList]
  rw [read, hcursor]
  dsimp only
  rw [hread]
  exact ⟨htells, rfl⟩

end BreakpointProps.Json
