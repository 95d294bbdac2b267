import BreakpointProps.Proofs.Script.LoneElement
import BreakpointProps.Script.Printer.Script

/-!
How an element is written that stands alone in a script without comments.
-/

namespace BreakpointProps.Script

/-- The sheet holds this text and no comments, and stands at the start of a line or not. -/
structure Writer.Holds (s : Writer) (text : String) (fresh : Bool) : Prop where
  text_eq : s.text = text
  lineStart_eq : s.lineStart = fresh
  indent_eq : s.indent = 0
  comments_eq : s.comments = []

namespace Print

/-- On any sheet without comments, the action adds this text to the line. -/
def Writes {α : Type} (action : Print α) (a : α) (added : String) : Prop :=
  ∀ s text fresh, s.Holds text fresh →
    (action s).1 = a ∧ Writer.Holds (action s).2 (text ++ added) (fresh && added.isEmpty)

section Writes

variable {α β : Type} {a : α} {b : β} {added more : String}

/-- An action that adds nothing leaves the sheet in front of the same text. -/
theorem writes_nothing_iff {action : Print α} :
    Writes action a "" ↔ ∀ s text fresh, s.Holds text fresh →
      (action s).1 = a ∧ Writer.Holds (action s).2 text fresh := by
  have hfresh : ∀ fresh, (fresh && "".isEmpty) = fresh := Bool.and_true
  simp only [Writes, hfresh, String.append_empty]

theorem Writes.holds {action : Print α} {s : Writer} {text : String} {fresh : Bool}
    (haction : Writes action a "") (hs : s.Holds text fresh) :
    Writer.Holds (action s).2 text fresh := (writes_nothing_iff.mp haction s text fresh hs).2

theorem writes_pure (a : α) : Writes (pure a) a "" :=
  writes_nothing_iff.mpr fun _ _ _ hs => ⟨rfl, hs⟩

/-- A change to the marks or the place alone. -/
theorem writes_modify {f : Writer → Writer} (hf : ∀ s text fresh, s.Holds text fresh →
    (f s).Holds text fresh) : Writes (modify f) () "" :=
  writes_nothing_iff.mpr fun s text fresh hs => ⟨rfl, hf s text fresh hs⟩

theorem writes_get_bind {next : Writer → Print β} (hnext : ∀ s, Writes (next s) b added) :
    Writes (get >>= next) b added := fun s text fresh hs => hnext s s text fresh hs

theorem isEmpty_append (text other : String) :
    (text ++ other).isEmpty = (text.isEmpty && other.isEmpty) := by
  rw [Bool.eq_iff_iff]
  simp [String.isEmpty_iff]

theorem Writes.bind {action : Print α} {next : α → Print β} (haction : Writes action a added)
    (hnext : Writes (next a) b more) : Writes (action >>= next) b (added ++ more) := by
  intro s text fresh hs
  obtain ⟨ha, hs⟩ := haction s text fresh hs
  obtain ⟨hb, ht⟩ := hnext _ _ _ hs
  have hrun : (action >>= next) s = next (action s).1 (action s).2 := rfl
  rw [hrun, ha, isEmpty_append, ← String.append_assoc, ← Bool.and_assoc]
  exact ⟨hb, ht⟩

/-- An action in front of which nothing was written. -/
theorem Writes.after {action : Print α} {next : α → Print β} (haction : Writes action a "")
    (hnext : Writes (next a) b added) : Writes (action >>= next) b added := by
  have hboth := haction.bind hnext
  rwa [String.empty_append] at hboth

/-- An action behind which nothing is written. -/
theorem Writes.before {action : Print α} {next : α → Print β} (haction : Writes action a added)
    (hnext : Writes (next a) b "") : Writes (action >>= next) b added := by
  have hboth := haction.bind hnext
  rwa [String.append_empty] at hboth

theorem Writes.ite {c : Prop} [Decidable c] {yes no : Print α} (hyes : Writes yes a added)
    (hno : Writes no a added) : Writes (if c then yes else no) a added := by
  split
  · exact hyes
  · exact hno

theorem writes_markHere (position : Nat) : Writes (markHere position) () "" := by
  apply writes_modify
  intro s text fresh hs
  dsimp only
  split
  · exact hs
  · exact ⟨hs.text_eq, hs.lineStart_eq, hs.indent_eq, hs.comments_eq⟩

theorem writes_markPending (pending : Option Nat) : Writes (pending.forM markHere) () "" := by
  cases pending with
  | none => exact writes_pure ()
  | some position => exact writes_markHere position

theorem writes_mark (position : Nat) : Writes (mark position) () "" := by
  apply Writes.ite (writes_pure ())
  apply writes_get_bind
  intro s
  apply Writes.ite _ (writes_markHere position)
  exact writes_modify fun s text fresh hs =>
    ⟨hs.text_eq, hs.lineStart_eq, hs.indent_eq, hs.comments_eq⟩

theorem holds_raw {s : Writer} {text : String} {fresh : Bool} (hs : s.Holds text fresh)
    (added : String) : Writer.Holds (raw added s).2 (text ++ added) fresh :=
  ⟨congrArg (· ++ added) hs.text_eq, hs.lineStart_eq, hs.indent_eq, hs.comments_eq⟩

/-- Without indentation nothing is written where a line begins. -/
theorem holds_beginLine {s : Writer} {text : String} {fresh : Bool} (hs : s.Holds text fresh) :
    Writer.Holds (beginLine s).2 text false := by
  cases fresh with
  | true =>
      have hrun : beginLine s = s.pendingMark.forM markHere
          { (raw "" s).2 with lineStart := false, pendingMark := none } := by
        cases s
        cases hs.lineStart_eq
        cases hs.indent_eq
        rfl
      have hraw := holds_raw hs ""
      rw [String.append_empty] at hraw
      have hbegun : Writer.Holds { (raw "" s).2 with lineStart := false, pendingMark := none } text
          false := ⟨hraw.text_eq, rfl, hraw.indent_eq, hraw.comments_eq⟩
      rw [hrun]
      exact (writes_markPending s.pendingMark).holds hbegun
  | false =>
      have hrun : beginLine s = ((), s) := by
        cases s
        cases hs.lineStart_eq
        rfl
      rw [hrun]
      exact hs

theorem writes_write (text : String) : Writes (write text) () text := by
  intro s before fresh hs
  cases hempty : text.isEmpty with
  | true =>
      obtain rfl := String.isEmpty_iff.mp hempty
      exact writes_pure () s before fresh hs
  | false =>
      have hrun : write text s = raw text (beginLine s).2 := by
        have hskip : write text = beginLine >>= fun _ => raw text := by
          rw [write, hempty]
          rfl
        rw [hskip]
        rfl
      rw [hrun, Bool.and_false]
      exact ⟨rfl, holds_raw (holds_beginLine hs) text⟩

theorem writes_takeComments (attachment : Attachment) (position : Nat) :
    Writes (takeComments attachment position) [] "" := by
  intro s text fresh hs
  cases s
  cases hs.comments_eq
  exact writes_pure [] _ text fresh hs

theorem writes_writeLines (text : String) : Writes (writeLines text) () text := by
  apply (writes_write text).before
  apply Writes.ite _ (writes_pure ())
  exact writes_modify fun s text fresh hs =>
    ⟨hs.text_eq, hs.lineStart_eq, hs.indent_eq, hs.comments_eq⟩

theorem writes_leading (position : Nat) : Writes (leading position) () "" := by
  apply Writes.ite (writes_pure ())
  exact (writes_takeComments .leads position).after (writes_pure ())

theorem writes_trailing (position : Nat) (spaced : Bool) : Writes (trailing position spaced) () "" := by
  apply Writes.ite (writes_pure ())
  exact (writes_takeComments .trails position).after (writes_pure ())

theorem writes_markStart (span : Span) : Writes (markStart span) () "" :=
  (writes_pure ()).ite (writes_mark _)

theorem writes_start (span : Span) : Writes (start span) () "" :=
  (writes_leading span.lo).after (writes_markStart span)

end Writes

section Nodes

variable {span : Span} {parts : List Part} {part : Part} {added : String}

theorem writes_name (text : String) : Writes (bare (.name text) span []) () text :=
  (writes_start span).after (writes_writeLines text)

theorem writes_string (value : String) :
    Writes (bare (.string value none) span []) () (Quoting.quoted value) := by
  apply (writes_start span).after
  apply (writes_writeLines _).before
  exact ((writes_pure ()).ite (writes_mark _)).ite (writes_pure ())

theorem writes_list_attributes (span : Span) {item : Item} (hitem : Writes item.2 () added) :
    Writes (list span .attributes [item]) () added := by
  have hlist : list span .attributes [item] = item.2 := by
    simp [list, ListFormat.attributes, laterItems]
  rwa [hlist]

theorem writes_list_children : Writes (list span .children []) () "" := writes_pure ()

theorem writes_container (span : Span) (hpart : Writes part.print () added) :
    Writes (bare .container span [part]) () ("\x7b" ++ (added ++ "\x7d")) :=
  (writes_write _).bind (hpart.bind (writes_write _))

theorem writes_attribute (span : Span) {name value : Part} {text : String}
    (hname : Writes name.bare () text) (hvalue : value.isAbsent = false)
    (hadded : Writes value.bare () added) :
    Writes (bare .attribute span [name, value]) () (text ++ ("=" ++ added)) := by
  have hbare : bare .attribute span [name, value] = (do
      name.bare
      if !value.isAbsent then
        write "="
        value.bare) := rfl
  rw [hbare, hvalue]
  exact hname.bind ((writes_write _).bind hadded)

theorem writes_openingTag {name types item : Part} {text : String} (hname : Writes name.bare () text)
    (htypes : Writes types.print () "") (hitem : Writes item.print () added)
    (hlabel : item.label = .attribute) :
    Writes (bare (.openingTag true) span [name, types, item]) ()
      ("<" ++ (text ++ (" " ++ (added ++ "/>")))) := by
  have hprint : (tagItem item).2 = item.print := by rw [tagItem, hlabel]
  have hlist := writes_list_attributes span (hprint ▸ hitem : Writes (tagItem item).2 () added)
  apply (writes_write "<").bind
  apply hname.bind
  apply htypes.after
  exact (writes_write " ").bind (hlist.bind (writes_write "/>"))

theorem writes_element {opening children closing : Part} (hopening : Writes opening.print () added)
    (hchildren : children.bareItems = []) (hclosing : Writes closing.print () "") :
    Writes (bare .element span [opening, children, closing]) () added := by
  have hbare : bare .element span [opening, children, closing] = (do
      opening.print
      list span .children children.bareItems
      closing.print) := rfl
  rw [hbare, hchildren]
  exact hopening.before (writes_list_children.after hclosing)

theorem writes_expressionStatement (span : Span) (hpart : Writes part.print () added) :
    Writes (bare .expressionStatement span [part]) () (added ++ ";") := by
  apply (writes_leading _).after
  apply (writes_takeComments .trails span.hi).after
  apply hpart.bind
  exact (writes_write _).before (writes_pure ())

/-- An expression is written with what trails it. -/
theorem writes_expression {label : Label} (hlabel : isExpression label = true)
    (hbare : Writes (bare label span parts) () added) : Writes (node label span parts).print () added := by
  have hprint : (node label span parts).print = (do
      bare label span parts
      trailing span.hi true) := by
    simp only [node, hlabel, Bool.true_or, ↓reduceIte]
  rw [hprint]
  exact hbare.before (writes_trailing _ _)

end Nodes

theorem holds_newLine {s : Writer} {text : String} (hs : s.Holds text false) :
    Writer.Holds (newLine s).2 (text ++ "\n") true := by
  have hrun : newLine s = s.pendingMark.forM markHere
      { s with text := s.text ++ "\n", line := s.line + 1, column := 0
               lineStart := true, pendingMark := none } := by
    cases s
    cases hs.lineStart_eq
    rfl
  have hnew : Writer.Holds { s with text := s.text ++ "\n", line := s.line + 1, column := 0
                                    lineStart := true, pendingMark := none } (text ++ "\n") true :=
    ⟨congrArg (· ++ "\n") hs.text_eq, rfl, hs.indent_eq, hs.comments_eq⟩
  rw [hrun]
  exact (writes_markPending s.pendingMark).holds hnew

/-- A node as a part of another. -/
def asPart (n : Node) : Part := (n, n.fold node)

/-- A statement ends with its line. -/
theorem holds_expressionStatement (span : Span) {value : Node} {added : String}
    (hvalue : Writes (asPart value).print () added) {s : Writer} {text : String} {fresh : Bool}
    (hs : s.Holds text fresh) :
    Writer.Holds ((asPart (.mk .expressionStatement span [value])).print s).2
      (text ++ (added ++ ";") ++ "\n") true := by
  have hprint : (asPart (.mk .expressionStatement span [value])).print s =
      newLine (trailing span.hi true (bare .expressionStatement span [asPart value] s).2).2 := rfl
  have hbare := (writes_expressionStatement span hvalue s text fresh hs).2
  have hend : (added ++ ";").isEmpty = false := by simp [isEmpty_append]
  rw [hend, Bool.and_false] at hbare
  rw [hprint]
  exact holds_newLine ((writes_trailing _ _).holds hbare)

theorem text_write (tree : Node) (source : String) :
    (tree.write [] source).text =
      (script tree { source := source.toList, comments := [] }).2.text := rfl

section Lone

variable (places : LonePlaces) (name : String) {item : Node} {added : String}
  (hlabel : item.label = .attribute) (hitem : Writes (asPart item).print () added)
include hlabel hitem

theorem writes_loneElement :
    Writes (asPart (.mk .element places.element
      [.mk (.openingTag true) places.tag [.leaf (.name name) places.name, .absent, item], .list [],
        .absent])).print () ("<" ++ (name ++ (" " ++ (added ++ "/>")))) := by
  have hname : Writes (asPart (.leaf (.name name) places.name)).bare () name := writes_name name
  have habsent : Writes (asPart .absent).print () "" := writes_pure ()
  have hopening : Writes (asPart (.mk (.openingTag true) places.tag
      [.leaf (.name name) places.name, .absent, item])).print ()
      ("<" ++ (name ++ (" " ++ (added ++ "/>")))) :=
    writes_openingTag hname habsent hitem hlabel
  have hchildren : (asPart (.list [])).bareItems = [] := rfl
  exact writes_expression rfl (writes_element hopening hchildren habsent)

/-- How a script of one element with one attribute is written. -/
theorem text_write_loneTree (source : String) :
    ((loneTree places name item).write [] source).text =
      "<" ++ (name ++ (" " ++ (added ++ "/>"))) ++ ";" ++ "\n" := by
  have hempty : Writer.Holds { source := source.toList, comments := [] } "" true :=
    ⟨rfl, rfl, rfl, rfl⟩
  have hscript : script (loneTree places name item) = (do
      leading places.script.lo
      (asPart (loneStatement places name item)).print
      trailing places.statement.hi true
      trailing places.script.hi true) := by
    simp [script, loneTree]
    rfl
  have hstatement := holds_expressionStatement places.statement
    (writes_loneElement places name hlabel hitem) ((writes_leading places.script.lo).holds hempty)
  have hholds := (writes_trailing places.script.hi true).holds
    ((writes_trailing places.statement.hi true).holds hstatement)
  rw [String.empty_append] at hholds
  rw [text_write, hscript]
  exact hholds.text_eq

end Lone

end Print

end BreakpointProps.Script
