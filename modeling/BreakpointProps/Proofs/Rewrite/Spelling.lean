import BreakpointProps.Proofs.Script.Writing
import BreakpointProps.Rewrite.Element

/-!
How the class list of a rewritten element is spelled, and what is read of it again. An attribute knows
no escapes, so what is escaped between its quotes is not read as what it stands for. A string goes into
a container when a character of it is known to be escaped, but not for the characters that are spelled
out with their numbers.
-/

namespace BreakpointProps.Rewrite

open Script
open Script.Quoting (bestQuote closesSurrogates escapedChars isPlain isSpelledOut)

section Spelling

variable {value : String}

/-- How the class list is spelled in its attribute. -/
def classListText (value : String) : List Char :=
  if needsContainer value then '{' :: (Quoting.quoted value).toList ++ ['}']
  else (Quoting.quoted value).toList

/-- What a class list without a container holds. -/
structure IsSimple (value : List Char) : Prop where
  isControl_eq : ∀ c ∈ value, Text.isControl c = false
  backslash_not_mem : '\\' ∉ value
  ampersand_not_mem : '&' ∉ value
  one_quote : '"' ∉ value ∨ '\'' ∉ value

theorem isSimple_of_needsContainer (hneeds : needsContainer value = false) : IsSimple value.toList := by
  simp only [needsContainer, Bool.or_eq_false_iff, List.any_eq_false, Bool.not_eq_true,
    beq_eq_false_iff_ne, Bool.and_eq_false_iff] at hneeds
  obtain ⟨hchars, hquotes⟩ := hneeds
  refine ⟨fun c hc => (hchars c hc).1.1, ?_, ?_, by simpa using hquotes⟩
  · exact fun hc => (hchars _ hc).1.2 rfl
  · exact fun hc => (hchars _ hc).2 rfl

theorem IsSimple.isPlain_or {value : List Char} (hvalue : IsSimple value) :
    ∀ c ∈ value, isPlain (bestQuote value) c = true ∨ isSpelledOut c = true := by
  intro c hc
  have hquote : c ≠ bestQuote value := fun h => Quoting.bestQuote_not_mem hvalue.one_quote (h ▸ hc)
  have hback : c ≠ '\\' := fun h => hvalue.backslash_not_mem (h ▸ hc)
  have hcontrol := hvalue.isControl_eq c hc
  simp only [Text.isControl, Bool.or_eq_false_iff, decide_eq_false_iff_not, Nat.not_lt] at hcontrol
  cases hspelled : isSpelledOut c with
  | true => exact Or.inr rfl
  | false => exact Or.inl (by simp [isPlain, hquote, hback, hcontrol.1, hspelled])

/-- The class list that is read where one was written. -/
def rereadClasses (value : String) : String :=
  if needsContainer value then value
  else String.ofList (escapedChars (bestQuote value.toList) value.toList)

theorem rereadClasses_eq_iff (value : String) :
    rereadClasses value = value ↔
      needsContainer value = true ∨ ∀ c ∈ value.toList, isSpelledOut c = false := by
  rw [rereadClasses]
  cases hneeds : needsContainer value with
  | true => simp
  | false =>
      have hsimple := isSimple_of_needsContainer hneeds
      rw [← Quoting.escapedChars_eq_iff (Quoting.bestQuote_eq _) hsimple.isPlain_or]
      simp only [Bool.false_eq_true, ↓reduceIte, false_or]
      rw [← String.toList_inj, String.toList_ofList]

theorem writes_classNameNode (value : String) (span : Span) :
    Print.Writes (Print.asPart (classNameNode value span)).print ()
      (classNameAttribute ++ ("=" ++ String.ofList (classListText value))) := by
  have hname : Print.Writes (Print.asPart (.leaf (.name classNameAttribute) span)).bare ()
      classNameAttribute := Print.writes_name _
  have hstring : Print.Writes (Print.asPart (.leaf (.string value none) span)).bare ()
      (Quoting.quoted value) := Print.writes_string value
  have hprint : Print.Writes (Print.asPart (.leaf (.string value none) span)).print ()
      (Quoting.quoted value) := Print.writes_expression rfl (Print.writes_string value)
  have hvalue : ∀ {node added}, node.isAbsent = false →
      Print.Writes (Print.asPart node).bare () added →
      Print.Writes
        (Print.asPart (.mk .attribute span [.leaf (.name classNameAttribute) span, node])).print ()
        (classNameAttribute ++ ("=" ++ added)) :=
    fun habsent hnode => Print.writes_attribute span hname habsent hnode
  rw [classNameNode, classListText]
  cases needsContainer value with
  | true =>
      have hcontainer : Print.Writes
          (Print.asPart (.mk .container span [.leaf (.string value none) span])).bare ()
          ("\x7b" ++ (Quoting.quoted value ++ "\x7d")) := Print.writes_container span hprint
      have htext : String.ofList ('{' :: (Quoting.quoted value).toList ++ ['}']) =
          "\x7b" ++ (Quoting.quoted value ++ "\x7d") := by
        rw [← String.toList_inj]
        simp
      simp only [↓reduceIte]
      rw [htext]
      exact hvalue rfl hcontainer
  | false =>
      simp only [Bool.false_eq_true, ↓reduceIte, String.ofList_toList]
      exact hvalue rfl hstring

theorem toList_quoted (value : String) :
    (Quoting.quoted value).toList = bestQuote value.toList ::
      escapedChars (bestQuote value.toList) value.toList ++ [bestQuote value.toList] :=
  String.toList_ofList

/-- What is read of a class list: an attribute that is known to hold it. -/
theorem readsValue_classListText (hcloses : closesSurrogates value.toList = true) :
    ∃ result, ReadsValue (classListText value) result ∧
      ∀ node, result node → staticValue? node = some (rereadClasses value) := by
  have hquote := Quoting.bestQuote_eq value.toList
  rw [classListText, rereadClasses, toList_quoted]
  cases hneeds : needsContainer value with
  | true =>
      have hspells := Quoting.spells_escapedChars hquote ('}' :: loneEnd) hcloses
      refine ⟨_, readsValue_container hquote hspells, ?_⟩
      rintro _ ⟨span, _, ⟨inner, rfl⟩, rfl⟩
      simp [staticValue?, staticText?, Node.leaf]
  | false =>
      have hsimple := isSimple_of_needsContainer hneeds
      -- What is escaped stays as it is, so it must neither end the string nor start a reference.
      have hbody : ∀ c ∈ escapedChars (bestQuote value.toList) value.toList,
          c ≠ bestQuote value.toList ∧ c ≠ '&' ∧ c ≠ '\r' := by
        intro c hc
        rcases Quoting.mem_escapedChars hquote hsimple.isPlain_or hc with hmem | hmem
        · refine ⟨?_, ?_, ?_⟩
          · rintro rfl
            exact Quoting.bestQuote_not_mem hsimple.one_quote hmem
          · rintro rfl
            exact hsimple.ampersand_not_mem hmem
          · rintro rfl
            exact absurd (hsimple.isControl_eq _ hmem) (by decide)
        · have hspelling : ∀ d ∈ Quoting.spelling,
              d ≠ '"' ∧ d ≠ '\'' ∧ d ≠ '&' ∧ d ≠ '\r' := by simp [Quoting.spelling]
          obtain ⟨hdouble, hsingle, hamp, hreturn⟩ := hspelling c hmem
          refine ⟨?_, hamp, hreturn⟩
          rcases hquote with heq | heq <;> rw [heq]
          · exact hdouble
          · exact hsingle
      refine ⟨_, readsValue_string hquote hbody, ?_⟩
      rintro _ ⟨span, rfl⟩
      rfl

end Spelling

/-- The class list that was written is read again, apart from the characters that are spelled out
where there is no container. In a container no backslash may stand in front of what names a surrogate in
braces that are not closed. -/
theorem read_write_classNameNode {dialect : Dialect} (hjsx : dialect.jsx = true) {name : String}
    (hname : Lex.IsTagName name.toList) {value : String} (hcloses : closesSurrogates value.toList = true)
    (places : LonePlaces) (span : Span) (source : String) :
    ∃ reading places' item span',
      Script.read dialect ((loneTree places name (classNameNode value span)).write [] source).text =
        .ok reading ∧
      reading.tree = loneTree places' name item ∧
      Role.of item = .staticClassName (rereadClasses value) span' ∧
      (rereadClasses value = value ↔
        needsContainer value = true ∨ ∀ c ∈ value.toList, isSpelledOut c = false) := by
  obtain ⟨result, hreads, hresult⟩ := readsValue_classListText hcloses
  have hitem : Lex.IsTagName classNameAttribute.toList := by decide
  have htext := Print.text_write_loneTree places name rfl (writes_classNameNode value span) source
  have hlone : ((loneTree places name (classNameNode value span)).write [] source).text =
      String.ofList (loneText name.toList classNameAttribute.toList (classListText value)) := by
    rw [htext, ← String.toList_inj]
    simp [loneText, loneEnd]
  obtain ⟨reading, places', item, hreading, htree, span', nameSpan, part, hpart, rfl⟩ :=
    read_loneText hjsx hname hitem hreads
  rw [String.ofList_toList] at htree
  rw [hlone]
  refine ⟨reading, places', _, span', hreading, htree, ?_, rereadClasses_eq_iff value⟩
  simp [Role.of, Node.leaf, hresult part hpart]

/-- A line separator is read as the characters that name it. -/
theorem read_write_classNameNode_separator :
    let places : LonePlaces := ⟨.nowhere, .nowhere, .nowhere, .nowhere, .nowhere⟩
    ∃ reading places' item span,
      Script.read ⟨true, true⟩
        ((loneTree places "div" (classNameNode "md:\u2028" .nowhere)).write [] "").text = .ok reading ∧
      reading.tree = loneTree places' "div" item ∧
      Role.of item = .staticClassName "md:\\u2028" span := by
  intro places
  have hjsx : (Script.Dialect.mk true true).jsx = true := rfl
  have hname : Lex.IsTagName "div".toList := by decide
  have hcloses : closesSurrogates "md:\u2028".toList = true := by decide
  have hreread : rereadClasses "md:\u2028" = "md:\\u2028" := by decide
  obtain ⟨reading, places', item, span, hreading, htree, hrole, _⟩ :=
    read_write_classNameNode hjsx hname hcloses places .nowhere ""
  exact ⟨reading, places', item, span, hreading, htree, hreread ▸ hrole⟩

end BreakpointProps.Rewrite
