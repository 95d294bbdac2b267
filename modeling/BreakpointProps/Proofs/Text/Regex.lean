import Mathlib.Logic.Relation
import BreakpointProps.Text.Pattern

/-!
Regular expressions as they are written, and what they find. A pattern that is written as one is read back
with the meaning that it has, whatever characters stand in its texts.
-/

namespace BreakpointProps.Text

/-- A regular expression. -/
inductive Regex where
  | empty
  | char (c : Char)
  | oneOf (chars : List Char)
  /-- Any character but a line feed. -/
  | inLine
  /-- Nothing, at the end of the text. -/
  | atEnd
  | append (first second : Regex)
  | either (first second : Regex)
  | optional (inner : Regex)
  | many (inner : Regex)
  deriving Inhabited

namespace Regex

section Meaning

/-- Can an expression take a text from its start, so that another is left of it? -/
def Leads : Regex → List Char → List Char → Prop
  | empty, text, rest => text = rest
  | char c, text, rest => text = c :: rest
  | oneOf chars, text, rest => ∃ c ∈ chars, text = c :: rest
  | inLine, text, rest => ∃ c, c ≠ '\n' ∧ text = c :: rest
  | atEnd, text, rest => text = [] ∧ rest = []
  | append first second, text, rest => ∃ middle, first.Leads text middle ∧ second.Leads middle rest
  | either first second, text, rest => first.Leads text rest ∨ second.Leads text rest
  | optional inner, text, rest => text = rest ∨ inner.Leads text rest
  | many inner, text, rest => Relation.ReflTransGen inner.Leads text rest

/-- Is there a match anywhere in a text? -/
def Finds (regex : Regex) (text : List Char) : Prop :=
  ∃ before middle after, text = before ++ middle ∧ regex.Leads middle after

/-- One expression after another. -/
def row (items : List Regex) : Regex := items.foldr append empty

variable {text rest : List Char}

@[simp] theorem leads_row_nil : (row []).Leads text rest ↔ text = rest := Iff.rfl

@[simp] theorem leads_row_cons {item : Regex} {items : List Regex} :
    (row (item :: items)).Leads text rest ↔ ∃ middle, item.Leads text middle ∧ (row items).Leads middle rest :=
  Iff.rfl

theorem leads_row_append {first second : List Regex} :
    (row (first ++ second)).Leads text rest ↔
      ∃ middle, (row first).Leads text middle ∧ (row second).Leads middle rest := by
  induction first generalizing text with
  | nil => simp
  | cons item items ih =>
      simp only [List.cons_append, leads_row_cons, ih]
      constructor
      · rintro ⟨next, hitem, middle, hitems, hsecond⟩
        exact ⟨middle, ⟨next, hitem, hitems⟩, hsecond⟩
      · rintro ⟨middle, ⟨next, hitem, hitems⟩, hsecond⟩
        exact ⟨next, hitem, middle, hitems, hsecond⟩

theorem leads_row_singleton {item : Regex} : (row [item]).Leads text rest ↔ item.Leads text rest := by
  simp

theorem leads_row_chars {word : List Char} : (row (word.map char)).Leads text rest ↔ text = word ++ rest := by
  induction word generalizing text with
  | nil => rfl
  | cons c word ih =>
      rw [List.map_cons, leads_row_cons]
      constructor
      · rintro ⟨middle, rfl, hword⟩
        rw [ih.mp hword]
        rfl
      · rintro rfl
        exact ⟨word ++ rest, rfl, ih.mpr rfl⟩

theorem leads_many_inLine :
    (many inLine).Leads text rest ↔ ∃ passed, text = passed ++ rest ∧ '\n' ∉ passed := by
  constructor
  · intro hmany
    induction hmany using Relation.ReflTransGen.head_induction_on with
    | refl => exact ⟨[], rfl, List.not_mem_nil⟩
    | head hstep _ ih =>
        obtain ⟨c, hc, rfl⟩ := hstep
        obtain ⟨passed, rfl, hpassed⟩ := ih
        exact ⟨c :: passed, rfl, by simp [hpassed, hc.symm]⟩
  · rintro ⟨passed, rfl, hpassed⟩
    induction passed with
    | nil => exact .refl
    | cons c passed ih =>
        rw [List.mem_cons, not_or] at hpassed
        exact .head ⟨c, Ne.symm hpassed.1, rfl⟩ (ih hpassed.2)

end Meaning

section Reading

/-- What was read of a group: the alternatives before the last bar, and what follows it. In both the last one
comes first. -/
structure Group where
  alternatives : List Regex := []
  items : List Regex := []

/-- The expression that a group stands for. -/
def Group.regex (group : Group) : Regex :=
  group.alternatives.foldl (fun later earlier => either earlier later) (row group.items.reverse)

/-- Where in the notation a reader is. -/
inductive Mode where
  | plain
  /-- Behind a backslash. -/
  | escaped
  /-- Behind an opening bracket. -/
  | opened
  /-- Behind an opening bracket and a question mark. -/
  | asked
  /-- Among the characters in square brackets, the last one first. -/
  | members (chars : List Char)

/-- A reader: what was read of the group that it is in, and of those around it. -/
structure Reader where
  mode : Mode := .plain
  group : Group := {}
  outer : List Group := []

namespace Reader

/-- Put an item behind the others in a group. -/
def add (reader : Reader) (item : Regex) : Reader :=
  { reader with mode := .plain, group := { reader.group with items := item :: reader.group.items } }

/-- Make something of the last item, if there is one that was not made of another. -/
def change? (reader : Reader) (change : Regex → Regex) : Option Reader :=
  match reader.group.items with
  | [] | optional _ :: _ | many _ :: _ => none
  | item :: items => some { reader with mode := .plain, group := { reader.group with items := change item :: items } }

/-- End a group: it becomes an item of the one around it. -/
def close? (reader : Reader) : Option Reader :=
  match reader.outer with
  | [] => none
  | group :: outer => some (add { reader with group, outer } reader.group.regex)

/-- Read a character that stands for itself unless it has a meaning of its own. -/
def take (reader : Reader) (c : Char) : Option Reader :=
  match c with
  | '\\' => some { reader with mode := .escaped }
  | '(' => some { mode := .opened, outer := reader.group :: reader.outer }
  | ')' => close? { reader with mode := .plain }
  | '[' => some { reader with mode := .members [] }
  | '|' => some { reader with
      mode := .plain
      group := { alternatives := row reader.group.items.reverse :: reader.group.alternatives } }
  | '.' => some (reader.add inLine)
  | '$' => some (reader.add atEnd)
  | '?' => reader.change? optional
  | '*' => reader.change? many
  | '+' | '^' | ']' | '\x7b' | '\x7d' => none
  | c => some (reader.add (char c))

/-- Does a character mean something else than itself in square brackets? -/
def isSpecialMember (c : Char) : Bool := "[]\\^-&~".toList.contains c

/-- Read a character. What goes beyond groups, alternatives, sets of characters, optional and repeated parts
is not read. -/
def step (reader : Reader) (c : Char) : Option Reader :=
  match reader.mode with
  | .plain => reader.take c
  | .escaped => if Pattern.isMeta c then some (reader.add (char c)) else none
  | .opened => if c = '?' then some { reader with mode := .asked } else reader.take c
  | .asked => if c = ':' then some { reader with mode := .plain } else none
  | .members chars =>
    if c = ']' then if chars = [] then none else some (reader.add (oneOf chars.reverse))
    else if isSpecialMember c then none
    else some { reader with mode := .members (c :: chars) }

end Reader

/-- The regular expression that a text is the notation of. -/
def ofText? (text : String) : Option Regex := do
  let reader ← text.toList.foldlM Reader.step {}
  match reader.mode, reader.outer with
  | .plain, [] => some reader.group.regex
  | _, _ => none

end Reading

end Regex

namespace Pattern

open Regex (Reader Group row)

/-- Can a pattern be written as a regular expression? There must be something to choose from, and characters
in square brackets are not escaped. -/
def IsWritable : Pattern → Prop
  | literal _ => True
  | oneOf chars => chars ≠ [] ∧ ∀ c ∈ chars, Reader.isSpecialMember c = false
  | withinLine => True
  | choice options => options ≠ []
  | optional p => p.IsWritable
  | append p q => p.IsWritable ∧ q.IsWritable

/-- The group of some texts with bars between them, behind other alternatives. -/
def choiceGroup (alternatives : List Regex) : List (List Char) → Group
  | [] => { alternatives }
  | [text] => { alternatives, items := (text.map .char).reverse }
  | text :: rest => choiceGroup (row (text.map .char) :: alternatives) rest

/-- The items that a pattern is read as. -/
def items : Pattern → List Regex
  | literal text => text.map .char
  | oneOf chars => [.oneOf chars]
  | withinLine => [.many .inLine]
  | choice options => [(choiceGroup [] options).regex]
  | optional p => [.optional (row p.items)]
  | append p q => p.items ++ q.items

section Reading

variable {reader : Reader}

theorem take_of_not_isMeta {c : Char} (hc : isMeta c = false) : reader.take c = some (reader.add (.char c)) := by
  unfold Reader.take
  split
  case h_15 => rfl
  all_goals exact absurd hc (by decide)

/-- It makes no difference for a character outside of the notation of groups where it stands. -/
theorem take_mode (mode : Regex.Mode) (c : Char) : Reader.take { reader with mode } c = reader.take c := by
  unfold Reader.take
  split <;> rfl

theorem foldlM_opened (reader : Reader) {text : List Char} (hempty : text ≠ []) (hasked : text.head? ≠ some '?') :
    text.foldlM Reader.step { reader with mode := .opened } =
      text.foldlM Reader.step { reader with mode := .plain } := by
  cases text with
  | nil => exact absurd rfl hempty
  | cons c text =>
      have hstep : Reader.step { reader with mode := .opened } c = Reader.step { reader with mode := .plain } c := by
        have hc : c ≠ '?' := fun hsame => hasked (congrArg some hsame)
        simp only [Reader.step, if_neg hc, take_mode]
      rw [List.foldlM_cons, List.foldlM_cons, hstep]

/-- Items that are added one by one stand behind the others. -/
theorem foldl_add (items : List Regex) (hmode : reader.mode = .plain) :
    items.foldl Reader.add reader =
      { reader with group := { reader.group with items := items.reverse ++ reader.group.items } } := by
  induction items generalizing reader with
  | nil => rfl
  | cons item items ih =>
      rw [List.foldl_cons, ih rfl]
      simp [Reader.add, hmode]

/-- A text is read as itself when it is escaped. -/
theorem foldlM_escaped (text : List Char) (hmode : reader.mode = .plain) :
    (escaped text).foldlM Reader.step reader = some ((text.map Regex.char).foldl Reader.add reader) := by
  induction text generalizing reader with
  | nil => rfl
  | cons c text ih =>
      have hrest : (escaped text).foldlM Reader.step (reader.add (.char c)) = _ := ih rfl
      rw [escaped, List.flatMap_cons, ← escaped, List.foldlM_append, List.map_cons, List.foldl_cons, ← hrest]
      cases hc : isMeta c with
      | true => simp [Reader.step, hmode, Reader.take, hc, Reader.add]
      | false => simp [Reader.step, hmode, take_of_not_isMeta hc]

theorem foldlM_members {chars seen : List Char} (hchars : ∀ c ∈ chars, Reader.isSpecialMember c = false) :
    chars.foldlM Reader.step { reader with mode := .members seen } =
      some { reader with mode := .members (chars.reverse ++ seen) } := by
  induction chars generalizing seen with
  | nil => rfl
  | cons c chars ih =>
      have hspecial := hchars c List.mem_cons_self
      have hclose : c ≠ ']' := by
        rintro rfl
        exact absurd hspecial (by decide)
      rw [List.foldlM_cons]
      simp only [Reader.step, if_neg hclose, hspecial, Bool.false_eq_true, if_false, Option.bind_eq_bind,
        Option.bind_some]
      rw [ih fun other hother => hchars other (List.mem_cons_of_mem c hother)]
      simp

/-- Texts with bars between them are read as the alternatives of a group. -/
theorem foldlM_barred {alternatives : List Regex} (options : List (List Char)) (hmode : reader.mode = .plain)
    (hgroup : reader.group = { alternatives }) :
    (barred (options.map escaped)).foldlM Reader.step reader =
      some { reader with group := choiceGroup alternatives options } := by
  induction options generalizing reader alternatives with
  | nil =>
      rw [choiceGroup, ← hgroup]
      rfl
  | cons text rest ih =>
      have htext : (escaped text).foldlM Reader.step reader =
          some { reader with group := { alternatives, items := (text.map .char).reverse } } := by
        rw [foldlM_escaped text hmode, foldl_add _ hmode, hgroup, List.append_nil]
      cases rest with
      | nil => exact htext
      | cons next more =>
          have hbarred : barred ((text :: next :: more).map escaped) =
              escaped text ++ '|' :: barred ((next :: more).map escaped) := by
            rw [List.map_cons, barred]
            simp
          rw [hbarred, List.foldlM_append, htext]
          simp only [Option.bind_eq_bind, Option.bind_some, List.foldlM_cons, Reader.step, hmode, Reader.take,
            List.reverse_reverse]
          exact ih rfl rfl

/-- No group starts with a question mark, since that is escaped. -/
theorem head?_barred (options : List (List Char)) :
    (barred (options.map escaped) ++ [')']).head? ≠ some '?' := by
  cases options with
  | nil => decide
  | cons text rest =>
      cases text with
      | nil => cases rest <;> simp [barred, escaped]
      | cons c text =>
          obtain ⟨first, hfirst, hne⟩ : ∃ first, (escaped (c :: text)).head? = some first ∧ first ≠ '?' := by
            rw [escaped, List.flatMap_cons]
            cases hc : isMeta c with
            | true => exact ⟨'\\', rfl, by decide⟩
            | false =>
                refine ⟨c, rfl, ?_⟩
                rintro rfl
                exact absurd hc (by decide)
          cases rest <;> simp [barred, List.head?_append, hfirst, hne]

/-- A row is nothing that was made of an item. -/
theorem change?_row {inner : List Regex} {outside : Group} {outer : List Group} (change : Regex → Regex) :
    Reader.change? { group := { outside with items := row inner :: outside.items }, outer } change =
      some { group := { outside with items := change (row inner) :: outside.items }, outer } := by
  cases inner <;> rfl

/-- A pattern that can be written is read back as its items. -/
theorem foldlM_source {p : Pattern} (hp : p.IsWritable) (hmode : reader.mode = .plain) :
    p.source.foldlM Reader.step reader = some (p.items.foldl Reader.add reader) := by
  induction p generalizing reader with
  | literal text => exact foldlM_escaped text hmode
  | oneOf chars =>
      obtain ⟨hempty, hchars⟩ := hp
      have hopen : reader.step '[' = some { reader with mode := .members [] } := by
        simp [Reader.step, hmode, Reader.take]
      rw [source, List.cons_append, List.foldlM_cons, hopen, Option.bind_eq_bind, Option.bind_some,
        List.foldlM_append, foldlM_members hchars]
      simp [Reader.step, hempty, items, Reader.add]
  | withinLine =>
      simp [source, items, Reader.step, hmode, Reader.take, Reader.add, Reader.change?]
  | choice options =>
      have hopen : reader.step '(' = some { mode := .opened, outer := reader.group :: reader.outer } := by
        simp [Reader.step, hmode, Reader.take]
      rw [source, List.cons_append, List.foldlM_cons, hopen, Option.bind_eq_bind, Option.bind_some,
        foldlM_opened { outer := reader.group :: reader.outer } (by simp) (head?_barred options),
        List.foldlM_append, foldlM_barred options rfl rfl]
      simp [Reader.step, Reader.take, Reader.close?, items, Reader.add]
  | optional p ih =>
      have hopen : "(?:".toList.foldlM Reader.step reader = some { outer := reader.group :: reader.outer } := by
        simp [Reader.step, hmode, Reader.take]
      rw [source, List.foldlM_append, List.foldlM_append, hopen, Option.bind_eq_bind, Option.bind_some,
        ih hp rfl, foldl_add _ rfl]
      simp [Reader.step, Reader.take, Reader.close?, Reader.add, items, Group.regex, change?_row]
  | append p q ihp ihq =>
      have hmode' : (p.items.foldl Reader.add reader).mode = .plain := by
        rw [foldl_add _ hmode]
        exact hmode
      rw [source, List.foldlM_append, ihp hp.1 hmode, Option.bind_eq_bind, Option.bind_some,
        ihq hp.2 hmode', items, List.foldl_append]

end Reading

section Meaning

variable {text rest : List Char}

theorem leads_foldl_either {alternatives : List Regex} {last : Regex} :
    (alternatives.foldl (fun later earlier => .either earlier later) last).Leads text rest ↔
      (∃ regex ∈ alternatives, regex.Leads text rest) ∨ last.Leads text rest := by
  induction alternatives generalizing last with
  | nil => simp
  | cons first more ih =>
      rw [List.foldl_cons, ih, Regex.Leads]
      simp only [List.mem_cons, exists_eq_or_imp]
      rw [or_left_comm, or_assoc]

theorem leads_choiceGroup {alternatives : List Regex} {options : List (List Char)} (hoptions : options ≠ []) :
    (choiceGroup alternatives options).regex.Leads text rest ↔
      (∃ regex ∈ alternatives, regex.Leads text rest) ∨ ∃ option ∈ options, text = option ++ rest := by
  induction options generalizing alternatives with
  | nil => exact absurd rfl hoptions
  | cons option more ih =>
      cases more with
      | nil =>
          rw [choiceGroup, Group.regex, List.reverse_reverse, leads_foldl_either, Regex.leads_row_chars]
          simp
      | cons next others =>
          have hnext : choiceGroup alternatives (option :: next :: others) =
              choiceGroup (row (option.map .char) :: alternatives) (next :: others) := by
            rw [choiceGroup]
            simp
          rw [hnext, ih (List.cons_ne_nil next others)]
          simp only [List.mem_cons, exists_eq_or_imp, Regex.leads_row_chars]
          rw [or_assoc, or_left_comm]

/-- The items of a pattern take the texts that it matches. -/
theorem leads_items {p : Pattern} (hp : p.IsWritable) :
    (row p.items).Leads text rest ↔ ∃ taken, text = taken ++ rest ∧ p.Matches taken := by
  induction p generalizing text rest with
  | literal word => simp [items, Regex.leads_row_chars, Matches]
  | oneOf chars =>
      rw [items, Regex.leads_row_singleton]
      constructor
      · rintro ⟨c, hc, rfl⟩
        exact ⟨[c], rfl, c, hc, rfl⟩
      · rintro ⟨taken, rfl, c, hc, rfl⟩
        exact ⟨c, hc, rfl⟩
  | withinLine => rw [items, Regex.leads_row_singleton, Regex.leads_many_inLine]; rfl
  | choice options =>
      rw [items, Regex.leads_row_singleton, leads_choiceGroup hp]
      simp [Matches, and_comm]
  | optional p ih =>
      rw [items, Regex.leads_row_singleton, Regex.Leads, ih hp]
      constructor
      · rintro (rfl | ⟨taken, rfl, htaken⟩)
        · exact ⟨[], rfl, Or.inl rfl⟩
        · exact ⟨taken, rfl, Or.inr htaken⟩
      · rintro ⟨taken, rfl, rfl | htaken⟩
        · exact Or.inl rfl
        · exact Or.inr ⟨taken, rfl, htaken⟩
  | append p q ihp ihq =>
      rw [items, Regex.leads_row_append]
      constructor
      · rintro ⟨middle, hp', hq'⟩
        obtain ⟨first, rfl, hfirst⟩ := (ihp hp.1).mp hp'
        obtain ⟨second, rfl, hsecond⟩ := (ihq hp.2).mp hq'
        exact ⟨first ++ second, (List.append_assoc ..).symm, first, second, rfl, hfirst, hsecond⟩
      · rintro ⟨taken, rfl, first, second, rfl, hfirst, hsecond⟩
        refine ⟨second ++ rest, (ihp hp.1).mpr ⟨first, List.append_assoc .., hfirst⟩, ?_⟩
        exact (ihq hp.2).mpr ⟨second, rfl, hsecond⟩

/-- A pattern that can be written is found at the end of a text by the expression that its text is. -/
theorem exists_regex_of_sourceAtEnd {p : Pattern} (hp : p.IsWritable) :
    ∃ regex, Regex.ofText? p.sourceAtEnd = some regex ∧ ∀ text, regex.Finds text ↔ p.MatchesAtEnd text := by
  refine ⟨row (p.items ++ [.atEnd]), ?_, fun text => ?_⟩
  · rw [Regex.ofText?, sourceAtEnd, String.toList_ofList, List.foldlM_append, foldlM_source hp rfl,
      foldl_add _ rfl]
    simp [Reader.step, Reader.take, Reader.add, Group.regex]
  · constructor
    · rintro ⟨before, rest, after, rfl, hleads⟩
      obtain ⟨middle, hitems, hend⟩ := Regex.leads_row_append.mp hleads
      obtain ⟨rfl, -⟩ := Regex.leads_row_singleton.mp hend
      obtain ⟨taken, rfl, htaken⟩ := (leads_items hp).mp hitems
      exact ⟨before, taken, by rw [List.append_nil], htaken⟩
    · rintro ⟨before, taken, rfl, htaken⟩
      refine ⟨before, taken, [], rfl, Regex.leads_row_append.mpr ⟨[], ?_, ?_⟩⟩
      · exact (leads_items hp).mpr ⟨taken, (List.append_nil taken).symm, htaken⟩
      · exact Regex.leads_row_singleton.mpr ⟨rfl, rfl⟩

end Meaning

end Pattern

end BreakpointProps.Text
