import BreakpointProps.Proofs.Script.Expression

/-!
A script that is one element with one attribute, and what is read of it.
-/

namespace BreakpointProps.Script

open BreakpointProps.Script.Lex (IsTagName Steps)
open Parse

/-- What follows the value of the attribute. -/
def loneEnd : List Char := ['/', '>', ';', '\n']

/-- What encloses the attribute. -/
def loneScopes : List Scope := [.openingTag, .markup, .braceStatement]

/-- The reader behind the equals sign of the attribute. -/
def valueSight (text : List Char) : Sight :=
  ⟨some (.punct .assign), text ++ loneEnd, loneScopes, true⟩

/-- The reader behind the slash of the element. -/
def slashSight : Sight := ⟨some (.punct .slash), ['>', ';', '\n'], loneScopes, true⟩

/-- The reader behind the element. -/
def semicolonSight : Sight := ⟨some (.punct .semi), ['\n'], [.braceStatement], true⟩

/-- The text is read as the value of an attribute. -/
structure ReadsValue (text : List Char) (result : Node → Prop) : Prop where
  /-- It makes no longer operator of the equals sign. -/
  head : ∃ c, text.head? = some c ∧ c ≠ '=' ∧ c ≠ '>'
  reads : ∃ middle, Steps (valueSight text) middle ∧
    ∀ n, Reads (attributeValue (grammar (n + 8))) middle slashSight result

theorem steps_loneEnd {last : Option Token} {allowed : Bool} (hlast : last ≠ some .tagStart) :
    Steps ⟨last, loneEnd, loneScopes, allowed⟩ slashSight :=
  Lex.steps_slash hlast

section Value

variable {quote : Char} {body value : List Char} (hquote : quote = '"' ∨ quote = '\'')
include hquote

/-- A string whose characters stand for themselves. -/
theorem readsValue_string (hbody : ∀ c ∈ body, c ≠ quote ∧ c ≠ '&' ∧ c ≠ '\r') :
    ReadsValue (quote :: body ++ [quote])
      (IsLeaf (.string (String.ofList body) (some (String.ofList (quote :: body ++ [quote]))))) := by
  refine ⟨⟨quote, rfl, ?_⟩, _, Lex.steps_tagString hquote hbody (by decide), fun n => ?_⟩
  · rcases hquote with rfl | rfl <;> decide
  · exact reads_attributeValue_string rfl (steps_loneEnd (by simp))

/-- A string in braces, where escapes stand for characters. -/
theorem readsValue_container (hspells : Quoting.Spells quote ('}' :: loneEnd) body value) :
    ReadsValue ('{' :: (quote :: body ++ [quote]) ++ ['}'])
      (IsContainer (IsLeaf (.string (String.ofList value)
        (some (String.ofList (quote :: body ++ [quote])))))) := by
  have halone : ∀ node, IsLeaf (.string (String.ofList value)
      (some (String.ofList (quote :: body ++ [quote])))) node → IsAlone node := by
    rintro _ ⟨span, rfl⟩
    exact Or.inr ⟨_, _, rfl⟩
  have hopen : Steps (valueSight ('{' :: (quote :: body ++ [quote]) ++ ['}']))
      ⟨some (.punct .lbrace), quote :: body ++ [quote] ++ '}' :: loneEnd,
        .braceExpression :: loneScopes, true⟩ := by
    have htext : '{' :: (quote :: body ++ [quote]) ++ ['}'] ++ loneEnd =
        '{' :: (quote :: body ++ [quote] ++ '}' :: loneEnd) := by simp
    rw [valueSight, htext]
    exact Lex.steps_lbrace
  refine ⟨⟨'{', rfl, by decide⟩, _, hopen, fun n => ?_⟩
  have hstring : Steps ⟨some (.punct .lbrace), quote :: body ++ [quote] ++ '}' :: loneEnd,
        .braceExpression :: loneScopes, true⟩
      ⟨some (.str (String.ofList value) (String.ofList (quote :: body ++ [quote]))), '}' :: loneEnd,
        .braceExpression :: loneScopes, false⟩ := Lex.steps_string hquote hspells
  have hclose : Steps ⟨some (.str (String.ofList value) (String.ofList (quote :: body ++ [quote]))),
        '}' :: loneEnd, .braceExpression :: loneScopes, false⟩
      ⟨some (.punct .rbrace), loneEnd, loneScopes, false⟩ := Lex.steps_rbrace
  have hexpression := reads_grammar_expression (n := n + 4) (Or.inr ⟨_, _, rfl⟩) (Or.inr rfl) halone
    (reads_operand_string rfl hclose (Or.inr rfl))
  apply reads_attributeValue_container rfl
  · exact reads_expressionContainer hstring rfl hexpression rfl (steps_loneEnd (by simp))
  · rintro _ ⟨span, rfl⟩
    simp [Node.leaf, Node.label]

end Value

/-- A script of one element with one attribute. -/
def loneText (name item value : List Char) : List Char :=
  '<' :: name ++ ' ' :: (item ++ '=' :: (value ++ loneEnd))

/-- The reader behind the angle of the element. -/
def tagSight (name item value : List Char) : Sight :=
  ⟨some .tagStart, name ++ ' ' :: (item ++ '=' :: (value ++ loneEnd)), loneScopes, false⟩

section Element

variable {name item value : List Char} (hname : IsTagName name) (hitem : IsTagName item)
  {result : Node → Prop} (hvalue : ReadsValue value result)

include hname in
/-- A name makes an angle in front of it that of a tag. -/
theorem steps_loneText :
    Steps ⟨none, loneText name item value, [.braceStatement], true⟩ (tagSight name item value) := by
  obtain ⟨c, cs, rfl, hstart⟩ := hname.exists_cons
  apply Lex.steps_tagStart
  constructor <;>
  · rintro rfl
    exact absurd hstart (by decide)

include hname hitem hvalue

/-- From the angle up to the semicolon an element is read. -/
theorem reads_loneElement (n : Nat) :
    Reads (grammar (n + 63) .expression) (tagSight name item value) semicolonSight
      (IsLoneElement (String.ofList name) (IsAttribute (String.ofList item) result)) := by
  obtain ⟨⟨d, hhead, hequal, hgreater⟩, middle, hmiddle, hread⟩ := hvalue
  have hblank : (Text.isIdentifierPart ' ' || ' ' == '-') = false := by decide
  have hequals : (Text.isIdentifierPart '=' || '=' == '-') = false := by decide
  have hgap : ∀ c ∈ [' '], isBlank c = true ∧ isLineEnd c = false :=
    List.forall_mem_singleton.mpr (by decide)
  -- The tokens in the order in which they are read; those of the value come with `hvalue`.
  have htag : Steps (tagSight name item value)
      ⟨some (.jsxName (String.ofList name)), ' ' :: (item ++ '=' :: (value ++ loneEnd)), loneScopes,
        false⟩ :=
    Lex.steps_tagName [] hname (by simp) hblank
  have hattribute : Steps
      ⟨some (.jsxName (String.ofList name)), ' ' :: (item ++ '=' :: (value ++ loneEnd)), loneScopes,
        false⟩
      ⟨some (.jsxName (String.ofList item)), '=' :: (value ++ loneEnd), loneScopes, false⟩ :=
    Lex.steps_tagName [' '] hitem hgap hequals
  have hassign : Steps
      ⟨some (.jsxName (String.ofList item)), '=' :: (value ++ loneEnd), loneScopes, false⟩
      (valueSight value) :=
    Lex.steps_assign (by simp [List.head?_append, hhead, hequal, hgreater])
  have hclose : Steps slashSight ⟨some .tagEnd, [';', '\n'], [.braceStatement], false⟩ :=
    Lex.steps_tagEnd
  have hsemi : Steps ⟨some .tagEnd, [';', '\n'], [.braceStatement], false⟩ semicolonSight :=
    Lex.steps_semi
  have hitems := reads_tagAttribute rfl hassign rfl hmiddle (hread (n + 50))
  have helement : ∀ start, Reads (grammar (n + 59) (.element start))
      ⟨some (.jsxName (String.ofList name)), ' ' :: (item ++ '=' :: (value ++ loneEnd)), loneScopes,
        false⟩ semicolonSight (IsLoneElement (String.ofList name)
          (IsAttribute (String.ofList item) result)) := by
    intro start
    apply reads_grammar_element
    exact reads_element rfl hattribute rfl fun node =>
      reads_openingTagAfterName rfl hitems rfl hclose rfl hsemi
  apply reads_grammar_expression (n := n + 59) (Or.inl rfl) (Or.inl rfl)
  · rintro _ ⟨span, nameSpan, tag, _, rfl⟩
    exact Or.inl rfl
  · exact reads_operand_element rfl htag helement

end Element

/-- Where the nodes of a script of one element stand. -/
structure LonePlaces where
  script : Span
  statement : Span
  element : Span
  tag : Span
  name : Span

/-- An element with one attribute and nothing between its tags, as a statement. -/
def loneStatement (places : LonePlaces) (name : String) (item : Node) : Node :=
  .mk .expressionStatement places.statement
    [.mk .element places.element
      [.mk (.openingTag true) places.tag [.leaf (.name name) places.name, .absent, item], .list [],
        .absent]]

/-- The tree of a script of one element with one attribute. -/
def loneTree (places : LonePlaces) (name : String) (item : Node) : Node :=
  .mk (.program none) places.script [loneStatement places name item]

/-- What is read of a script of one element with one attribute. -/
theorem read_loneText {dialect : Dialect} (hjsx : dialect.jsx = true) {name item value : List Char}
    (hname : IsTagName name) (hitem : IsTagName item) {result : Node → Prop}
    (hvalue : ReadsValue value result) :
    ∃ reading places node, read dialect (String.ofList (loneText name item value)) = .ok reading ∧
      reading.tree = loneTree places (String.ofList name) node ∧
      IsAttribute (String.ofList item) result node := by
  have halone : ∀ node,
      IsLoneElement (String.ofList name) (IsAttribute (String.ofList item) result) node → IsAlone node := by
    rintro _ ⟨span, nameSpan, tag, _, rfl⟩
    exact Or.inl rfl
  have hstart : Steps
      ⟨none, (String.ofList (loneText name item value)).toList, [.braceStatement], true⟩
      (tagSight name item value) := by
    rw [String.toList_ofList]
    exact steps_loneText hname
  have hlast : EndsScript semicolonSight := ⟨rfl, List.forall_mem_singleton.mpr (by decide), rfl⟩
  obtain ⟨reading, hreading, htree⟩ := read_of_reads hjsx hlast halone rfl hstart
    (reads_loneElement hname hitem hvalue)
  obtain ⟨script, _, ⟨statement, _, helement, rfl⟩, htree⟩ := htree
  obtain ⟨element, nameSpan, _, ⟨tag, node, hnode, rfl⟩, rfl⟩ := helement
  exact ⟨reading, ⟨script, statement, element, tag, nameSpan⟩, node, hreading, htree, hnode⟩

end BreakpointProps.Script
