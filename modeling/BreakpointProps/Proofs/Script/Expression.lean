import BreakpointProps.Proofs.Script.Parsing

/-!
What stands alone in an expression passes through the readers of expressions as it is, and so does an
expression through those of statements and modules.
-/

namespace BreakpointProps.Script

namespace Parse

open BreakpointProps.Script.Lex (ReadsTags Steps)

/-- An expression starts here with a token that no operator, name or bracket is. -/
def StartsAlone (sight : Sight) : Prop :=
  sight.token = some .tagStart ∨ ∃ value raw, sight.token = some (.str value raw)

theorem StartsAlone.not_punct {sight : Sight} (hstarts : StartsAlone sight) (q : Punct) :
    sight.token.any (Token.isPunct q) = false := by
  rcases hstarts with htoken | ⟨value, raw, htoken⟩ <;> rw [htoken] <;> rfl

theorem StartsAlone.not_word {sight : Sight} (hstarts : StartsAlone sight) (name : String) :
    sight.token.any (Token.isWord name) = false := by
  rcases hstarts with htoken | ⟨value, raw, htoken⟩ <;> rw [htoken] <;> rfl

/-- No expression goes on here. -/
def EndsHere (sight : Sight) : Prop :=
  sight.token = some (.punct .semi) ∨ sight.token = some (.punct .rbrace)

theorem EndsHere.not_punct {sight : Sight} (hends : EndsHere sight) {q : Punct}
    (hsemi : q ≠ .semi) (hbrace : q ≠ .rbrace) : sight.token.any (Token.isPunct q) = false := by
  rcases hends with htoken | htoken <;> rw [htoken]
  · exact beq_eq_false_iff_ne.mpr hsemi
  · exact beq_eq_false_iff_ne.mpr hbrace

theorem EndsHere.not_word {sight : Sight} (hends : EndsHere sight) (name : String) :
    sight.token.any (Token.isWord name) = false := by
  rcases hends with htoken | htoken <;> rw [htoken] <;> rfl

/-- An element or a string. -/
def IsAlone (node : Node) : Prop :=
  node.label = .element ∨ ∃ value raw, node.label = .string value raw

theorem IsAlone.isArrow_eq {node : Node} (halone : IsAlone node) : isArrow node = false := by
  rcases halone with hlabel | ⟨value, raw, hlabel⟩ <;> rw [isArrow, hlabel]

section Alone

variable {before after : Sight} {g : Grammar} {result : Node → Prop}
  (hstarts : StartsAlone before) (hends : EndsHere after) (halone : ∀ node, result node → IsAlone node)

include hstarts hends halone

theorem reads_unaryExpression (hread : Reads (g .operand) before after result) :
    Reads (unaryExpression g) before after result := by
  intro context htags p hp
  have hprefix : ∀ post : Option String → Parser → Prop,
      post none p → Yields prefixOperator? p post := by
    intro post hpost
    simp only [prefixOperator?, yields_bind, yields_current?, hp.token_eq]
    rcases hstarts with htoken | ⟨value, raw, htoken⟩ <;> rw [htoken] <;> exact yields_pure.mpr hpost
  simp only [unaryExpression, yields_bind, yields_position, yields_context, hp.lexer_shows.context_eq,
    htags.jsx, Bool.not_true, Bool.false_and, Bool.false_eq_true, ↓reduceIte, yields_at, hp.token_eq,
    hstarts.not_punct, Bool.or_self]
  apply hprefix
  simp only [yields_bind, yields_atWord, hp.token_eq, hstarts.not_word, Bool.false_eq_true, ↓reduceIte]
  apply (hread context htags p hp).mono
  rintro node q ⟨hq, hnode⟩
  have hplus := hends.not_punct (q := .increment) (by decide) (by decide)
  have hminus := hends.not_punct (q := .decrement) (by decide) (by decide)
  simp only [(halone node hnode).isArrow_eq, Bool.false_eq_true, ↓reduceIte, yields_bind,
    yields_afterLineBreak]
  split
  · exact yields_pure.mpr ⟨hq, hnode⟩
  · simp only [yields_bind, yields_at, hq.token_eq, hplus, hminus, Bool.or_self, Bool.false_eq_true,
      ↓reduceIte, yields_pure]
    exact ⟨hq, hnode⟩

omit hstarts halone in
theorem yields_binaryOperator? {context : Context} {p : Parser} (hp : p.Stands context after)
    {post : Option (String × Nat) → Parser → Prop} (hpost : post none p) :
    Yields binaryOperator? p post := by
  simp only [binaryOperator?, yields_bind, yields_current?, hp.token_eq]
  rcases hends with htoken | htoken <;> rw [htoken] <;> exact yields_pure.mpr hpost

omit hstarts halone in
theorem yields_binaryTail {context : Context} {p : Parser} (hp : p.Stands context after) (n : Nat)
    (node : Node) {post : Node → Parser → Prop} (hpost : post node p) :
    Yields (binaryTail g (n + 1) 0 node) p post := by
  -- The branches are long, so they are not simplified before one is chosen.
  rw [binaryTail]
  refine yields_bind.mpr (yields_context.mpr (yields_bind.mpr (yields_afterLineBreak.mpr ?_)))
  dsimp only
  by_cases htypes : (p.lexer.context.typescript &&
      !(p.current.map Lexeme.afterLineBreak).getD false) = true
  · rw [if_pos htypes]
    refine yields_bind.mpr (yields_atWord.mpr ?_)
    rw [hp.token_eq, hends.not_word, Bool.and_false, if_neg Bool.false_ne_true]
    refine yields_bind.mpr (yields_atWord.mpr ?_)
    rw [hp.token_eq, hends.not_word, Bool.and_false, if_neg Bool.false_ne_true]
    exact yields_bind.mpr (yields_binaryOperator? hends hp (yields_pure.mpr hpost))
  · rw [if_neg htypes]
    exact yields_bind.mpr (yields_binaryOperator? hends hp (yields_pure.mpr hpost))

omit hstarts in
theorem reads_binaryExpression (hread : Reads (g .unary) before after result) :
    Reads (binaryExpression g) before after result := by
  intro context htags p hp
  obtain ⟨node, q, hrun, hq, hnode⟩ := hread context htags p hp
  simp only [binaryExpression, operatorBound, yields_bind, yields_get, yields_pure, hrun, yields_set,
    (halone node hnode).isArrow_eq, Bool.false_eq_true, ↓reduceIte]
  exact yields_binaryTail hends hq _ node ⟨hq, hnode⟩

omit hstarts in
theorem reads_conditionalExpression (hread : Reads (g .unary) before after result) :
    Reads (conditionalExpression g) before after result := by
  intro context htags p hp
  simp only [conditionalExpression, yields_bind, yields_position]
  apply (reads_binaryExpression hends halone hread context htags p hp).mono
  rintro node q ⟨hq, hnode⟩
  have hquestion := hends.not_punct (q := .question) (by decide) (by decide)
  simp only [(halone node hnode).isArrow_eq, Bool.false_eq_true, ↓reduceIte, yields_bind]
  rw [yields_eat_of_ne (by rwa [hq.token_eq])]
  simp only [Bool.not_false, ↓reduceIte, yields_pure]
  exact ⟨hq, hnode⟩

omit hstarts halone in
theorem yields_finishAssignment {context : Context} {p : Parser} (hp : p.Stands context after)
    (start : Nat) (node : Node) {post : Node → Parser → Prop} (hpost : post node p) :
    Yields (finishAssignment g start node) p post := by
  simp only [finishAssignment, yields_bind, yields_current?, hp.token_eq]
  rcases hends with htoken | htoken <;> rw [htoken] <;> exact yields_pure.mpr hpost

theorem reads_plainAssignment (hread : Reads (g .unary) before after result) :
    Reads (plainAssignment g) before after result := by
  intro context htags p hp
  obtain ⟨token, htoken⟩ : ∃ token, before.token = some token := by
    rcases hstarts with htoken | ⟨value, raw, htoken⟩ <;> exact ⟨_, htoken⟩
  simp only [plainAssignment, yields_bind, yields_context, yields_atWord, yields_position, hp.token_eq,
    hstarts.not_word, Bool.and_false, Bool.false_eq_true, ↓reduceIte,
    yields_needCurrent (hp.token_eq.trans htoken), yields_modify]
  refine Yields.mono (reads_conditionalExpression hends halone hread context htags _
    ⟨hp.token_eq, hp.ahead_eq, hp.lexer_shows⟩) ?_
  rintro node q ⟨hq, hnode⟩
  rw [(halone node hnode).isArrow_eq, if_neg Bool.false_ne_true]
  rcases halone node hnode with hlabel | ⟨value, raw, hlabel⟩ <;> rw [hlabel] <;>
    exact yields_finishAssignment hends hq _ node ⟨hq, hnode⟩

theorem reads_assignmentExpression (hread : Reads (g .unary) before after result) :
    Reads (assignmentExpression g) before after result := by
  have hplain : Reads (plainAssignment g) before after result :=
    reads_plainAssignment hstarts hends halone hread
  intro context htags p hp
  simp only [assignmentExpression, yields_bind, yields_context, hp.lexer_shows.context_eq, htags.jsx,
    Bool.and_true]
  cases htypes : context.typescript with
  | false =>
      simp only [Bool.false_eq_true, ↓reduceIte]
      exact hplain context htags p hp
  | true =>
      simp only [↓reduceIte, yields_bind, yields_current?, hp.token_eq]
      rcases hstarts with htoken | ⟨value, raw, htoken⟩
      -- An angle may open type parameters here, so the element is only attempted at first.
      · simp only [htoken, yields_bind]
        apply (hplain.attempt htags htypes hp).mono
        rintro _ q ⟨hq, node, rfl, hnode⟩
        exact yields_pure.mpr ⟨hq, hnode⟩
      · simp only [htoken, yields_bind, yields_current?, hp.token_eq, yields_pure, Bool.false_eq_true,
          ↓reduceIte]
        exact hplain context htags p hp

omit hstarts halone in
theorem reads_expression (hread : Reads (g .assignment) before after result) :
    Reads (expression g) before after result := by
  intro context htags p hp
  simp only [expression, yields_bind]
  apply (hread context htags p hp).mono
  rintro node q ⟨hq, hnode⟩
  have hcomma := hends.not_punct (q := .comma) (by decide) (by decide)
  simp only [yields_at, hq.token_eq, hcomma, Bool.not_false, ↓reduceIte, yields_pure]
  exact ⟨hq, hnode⟩

/-- What an operand gives where it stands alone, an expression gives. -/
theorem reads_grammar_expression {n : Nat} (hread : Reads (operand (grammar n)) before after result) :
    Reads (grammar (n + 4) .expression) before after result := by
  have hunary : Reads (grammar (n + 2) .unary) before after result :=
    reads_unaryExpression hstarts hends halone hread
  have hassignment : Reads (grammar (n + 3) .assignment) before after result :=
    reads_assignmentExpression hstarts hends halone hunary
  exact reads_expression hends hassignment

end Alone

section Operand

variable {before middle after : Sight} {g : Grammar} {result : Node → Prop}

theorem reads_operand_element (htoken : before.token = some .tagStart) (hsteps : Steps before middle)
    (hread : ∀ start, Reads (g (.element start)) middle after result) :
    Reads (operand g) before after result := by
  intro context htags p hp
  simp only [operand, yields_bind, yields_position, yields_context, hp.lexer_shows.context_eq, htags.jsx,
    ↓reduceIte, yields_needCurrent (hp.token_eq.trans htoken)]
  apply (reads_bump hsteps context htags p hp).mono
  rintro _ q ⟨hq, _⟩
  exact hread _ context htags q hq

theorem reads_grammar_element {n start : Nat}
    (hread : Reads (element (grammar n) (typeArguments (grammar n)) start) before after result) :
    Reads (grammar (n + 1) (.element start)) before after result := by
  rw [grammar]
  exact hread.within fun c hc => ⟨hc.jsx, hc.inPropertyName, hc.inType⟩

section String

variable {value raw : String} (htoken : before.token = some (.str value raw)) (hsteps : Steps before after)
  (hends : EndsHere after)

include hends in
/-- Nothing is appended to a string. -/
theorem reads_subscripts {node : Node} (hlabel : ∃ value raw, node.label = .string value raw)
    (noCall : Bool) : Reads (subscripts g node noCall) after after (· = node) := by
  obtain ⟨value, raw, hlabel⟩ := hlabel
  intro context htags p hp
  have hsuper : isSuper node = false := by rw [isSuper, hlabel]
  have hword : isImportWord node = false := by rw [isImportWord, hlabel]
  have hpunct : ∀ q ∈ [Punct.bang, .lt, .question, .lbracket, .dot, .lparen, .backquote],
      after.token.any (Token.isPunct q) = false := by
    intro q hq
    apply hends.not_punct <;>
    · rintro rfl
      exact absurd hq (by decide)
  have hat : ∀ (q : Punct) (post : Bool → Parser → Prop),
      q ∈ [Punct.bang, .lt, .question, .lbracket, .dot, .lparen, .backquote] →
        post false p → Yields (at_ q) p post := by
    intro q post hq hpost
    rw [yields_at, hp.token_eq, hpunct q hq]
    exact hpost
  rw [subscripts]
  apply yields_loop
  -- The branches are long, so they are not simplified before one is chosen.
  rw [yields_bind, subscript]
  refine yields_bind.mpr (yields_context.mpr (yields_bind.mpr (yields_afterLineBreak.mpr ?_)))
  refine yields_bind.mpr (hat .bang _ (by decide) ?_)
  dsimp only
  rw [Bool.and_false, if_neg Bool.false_ne_true]
  refine yields_bind.mpr (hat .lt _ (by decide) ?_)
  rw [Bool.and_false, if_neg Bool.false_ne_true]
  refine yields_bind.mpr (hat .question _ (by decide) ?_)
  rw [if_neg Bool.false_ne_true]
  refine yields_bind.mpr (yields_pure.mpr (yields_bind.mpr (yields_context.mpr ?_)))
  refine yields_bind.mpr (yields_and_false ?_)
  rw [if_neg Bool.false_ne_true]
  refine yields_bind.mpr (hat .lbracket _ (by decide) ?_)
  rw [Bool.and_false, if_neg Bool.false_ne_true]
  refine yields_bind.mpr (hat .dot _ (by decide) ?_)
  rw [Bool.and_false, if_neg Bool.false_ne_true]
  refine yields_bind.mpr (yields_pure.mpr (yields_bind.mpr (hat .lparen _ (by decide) ?_)))
  rw [Bool.and_false, Bool.or_self, if_neg Bool.false_ne_true]
  have hdot : (p.current.map Lexeme.token).any (Token.isPunct .dot) = false := by
    rw [hp.token_eq, hpunct .dot (by decide)]
  refine yields_bind.mpr ((yields_eat_of_ne hdot).mpr ?_)
  rw [if_neg Bool.false_ne_true, hsuper, if_neg Bool.false_ne_true, hword, if_neg Bool.false_ne_true]
  refine yields_bind.mpr (hat .backquote _ (by decide) ?_)
  rw [if_neg Bool.false_ne_true]
  refine yields_pure.mpr (yields_pure.mpr ?_)
  exact ⟨node, rfl, hp, rfl⟩

include htoken hsteps in
theorem reads_primary : Reads (primary g) before after (IsLeaf (.string value (some raw))) := by
  intro context htags p hp
  simp only [primary, yields_bind, yields_position, yields_get, yields_current?, hp.token_eq, htoken]
  exact reads_literal htoken hsteps context htags p hp

include htoken hsteps hends

theorem reads_memberOrNew (n : Nat) :
    Reads (memberOrNew g (n + 1)) before after (IsLeaf (.string value (some raw))) := by
  have hstarts : StartsAlone before := Or.inr ⟨value, raw, htoken⟩
  intro context htags p hp
  have hwords : ∀ name, (p.current.map Lexeme.token).any (Token.isWord name) = false := by
    intro name
    rw [hp.token_eq, hstarts.not_word]
  rw [memberOrNew]
  simp only [yields_bind, yields_position, yields_eatWord_of_ne (hwords _), Bool.false_eq_true, ↓reduceIte]
  apply (reads_primary htoken hsteps context htags p hp).mono
  rintro _ q ⟨hq, span, rfl⟩
  have hlt := hends.not_punct (q := .lt) (by decide) (by decide)
  have harrow : isArrow (Node.leaf (.string value (some raw)) span) = false := rfl
  simp only [harrow, Bool.false_eq_true, ↓reduceIte, yields_bind, yields_context, yields_at, hq.token_eq,
    hlt, Bool.and_false, yields_pure]
  apply (reads_subscripts hends ⟨value, some raw, rfl⟩ true context htags q hq).mono
  rintro _ r ⟨hr, rfl⟩
  exact ⟨hr, span, rfl⟩

theorem reads_operand_string : Reads (operand g) before after (IsLeaf (.string value (some raw))) := by
  have hstarts : StartsAlone before := Or.inr ⟨value, raw, htoken⟩
  intro context htags p hp
  have hwords : ∀ name, (p.current.map Lexeme.token).any (Token.isWord name) = false := by
    intro name
    rw [hp.token_eq, hstarts.not_word]
  simp only [operand, yields_bind, yields_position, yields_context, hp.lexer_shows.context_eq, htags.jsx,
    ↓reduceIte, yields_needCurrent (hp.token_eq.trans htoken), yields_eatWord_of_ne (hwords _),
    Bool.false_eq_true, yields_get]
  have hmember := (reads_memberOrNew (g := g) htoken hsteps hends p.lexer.size).within
    (f := fun c => { c with joinsAngles := true }) fun c hc => ⟨hc.jsx, hc.inPropertyName, hc.inType⟩
  apply (hmember context htags p hp).mono
  rintro _ q ⟨hq, span, rfl⟩
  have hlt := hends.not_punct (q := .lt) (by decide) (by decide)
  have hshift := hends.not_punct (q := .shiftLeft) (by decide) (by decide)
  have hlparen := hends.not_punct (q := .lparen) (by decide) (by decide)
  have harrow : isArrow (Node.leaf (.string value (some raw)) span) = false := rfl
  have habsent : Node.absent.isAbsent = true := rfl
  simp only [harrow, Bool.false_eq_true, ↓reduceIte, atTypeArguments, yields_bind, yields_at,
    hq.token_eq, hlt, hshift, Bool.or_self, yields_pure, Bool.and_false]
  simp only [Node.leaf, yields_bind, yields_at, hq.token_eq, hlparen, habsent, Bool.not_true,
    Bool.false_eq_true, ↓reduceIte, yields_pure]
  exact ⟨hq, span, rfl⟩

end String

end Operand

section Module

variable {first last : Sight} {g : Grammar} {result : Node → Prop}

/-- An expression that is a statement. -/
def IsStatement (value : Node → Prop) (node : Node) : Prop :=
  ∃ span part, value part ∧ node = .mk .expressionStatement span [part]

/-- The last semicolon of a script, behind which it ends. -/
structure EndsScript (sight : Sight) : Prop where
  token_eq : sight.token = some (.punct .semi)
  isSpace_rest : ∀ c ∈ sight.rest, isSpace c = true
  no_text : sight.scopes.head?.any Scope.keepsBlanks = false

theorem yields_eatSemicolon (hlast : EndsScript last) {context : Context} {p : Parser}
    (hp : p.Stands context last) :
    Yields eatSemicolon p fun found q => found = true ∧ q.Finished := by
  obtain ⟨t, hnext, hnoted⟩ := Lex.next_of_end hp.lexer_shows hlast.isSpace_rest hlast.no_text
  simp only [eatSemicolon, yields_bind]
  rw [yields_eat_of_eq (by rw [hp.token_eq, hlast.token_eq]; rfl)]
  apply yields_bump hp.ahead_eq hnext
  simp only [↓reduceIte, yields_pure]
  exact ⟨trivial, rfl, hnoted⟩

variable (hlast : EndsScript last) (halone : ∀ node, result node → IsAlone node)
include hlast halone

theorem yields_expressionStatement (hread : Reads (g .expression) first last result) {context : Context}
    (htags : ReadsTags context) {p : Parser} (hp : p.Stands context first) (start : Nat) :
    Yields (expressionStatement g start) p fun node q => q.Finished ∧ IsStatement result node := by
  simp only [expressionStatement, includingIn, yields_bind]
  have hwithin := hread.within (f := fun c => { c with includeIn := true })
    fun c hc => ⟨hc.jsx, hc.inPropertyName, hc.inType⟩
  apply (hwithin context htags p hp).mono
  rintro value q ⟨hq, hvalue⟩
  have hname : nameOf? value = none := by
    rcases halone value hvalue with hlabel | ⟨text, raw, hlabel⟩ <;> rw [nameOf?, hlabel]
  simp only [hname, yields_bind]
  apply (yields_eatSemicolon hlast hq).mono
  rintro _ r ⟨rfl, hr⟩
  simp only [↓reduceIte, yields_bind, yields_spanFrom, yields_pure]
  exact ⟨hr, _, value, hvalue, rfl⟩

variable (hfirst : first.token = some .tagStart)
include hfirst

theorem yields_item (hread : Reads (g .expression) first last result) {context : Context}
    (htags : ReadsTags context) {p : Parser} (hp : p.Stands context first) :
    Yields (item g true true) p fun node q => q.Finished ∧ IsStatement result node := by
  simp only [item, yields_bind, yields_current?, hp.token_eq, hfirst]
  obtain rfl : p.lexer.context = context := hp.lexer_shows.context_eq
  apply yields_within
  simp only [yields_bind, yields_position, yields_current?, (hp.knowing _).token_eq, hfirst]
  refine Yields.mono (yields_expressionStatement hlast halone hread ?_ (hp.knowing _) _) ?_
  · exact ⟨htags.jsx, htags.inPropertyName, htags.inType⟩
  · rintro node q ⟨hq, hnode⟩
    exact ⟨⟨hq.current_eq, hq.noted_eq⟩, hnode⟩

/-- A script of one statement. -/
def IsProgram (statement : Node → Prop) (node : Node) : Prop :=
  ∃ span part, statement part ∧ node = .mk (.program none) span [part]

theorem yields_module {start : Sight} (hstart : Steps start first) {n : Nat}
    (hread : Reads (grammar n .expression) first last result) {context : Context}
    (htags : ReadsTags context) {p : Parser} (hp : p.Stands context start) :
    Yields (module (grammar (n + 1))) p fun node q =>
      q.Finished ∧ IsProgram (IsStatement result) node := by
  simp only [module, yields_bind]
  apply (reads_bump hstart context htags p hp).mono
  rintro _ q ⟨hq, _⟩
  simp only [yields_position, yields_current?, yields_bind, hq.token_eq, hfirst, yields_pure]
  apply yields_many
  simp only [yields_bind, yields_atEnd, yields_pure, hq.token_eq, hfirst, Option.isNone_some, Bool.not_false,
    true_and]
  apply (yields_item hlast halone hfirst hread htags hq).mono
  rintro node r ⟨hr, hnode⟩
  simp only [hr.current_eq, Option.map_none, Option.isNone_none, Bool.not_true, true_and,
    yields_spanFrom]
  exact ⟨hr, _, node, hnode, rfl⟩

end Module

end Parse

/-- A script is read that is an expression with a semicolon behind it. -/
theorem read_of_reads {dialect : Dialect} (hjsx : dialect.jsx = true) {source : String} {first last : Sight}
    {result : Node → Prop} (hlast : Parse.EndsScript last)
    (halone : ∀ node, result node → Parse.IsAlone node) (hfirst : first.token = some .tagStart)
    (hstart : Lex.Steps ⟨none, source.toList, [.braceStatement], true⟩ first)
    (hread : ∀ n, Parse.Reads (Parse.grammar (n + 63) .expression) first last result) :
    ∃ reading, read dialect source = .ok reading ∧
      Parse.IsProgram (Parse.IsStatement result) reading.tree := by
  have htags : Lex.ReadsTags { jsx := dialect.jsx, typescript := dialect.typescript } := ⟨hjsx, rfl, rfl⟩
  obtain ⟨tree, q, hrun, hq, htree⟩ := Parse.yields_module hlast halone hfirst hstart
    (hread (16 * source.toList.length)) htags
    (p := { lexer := { rest := source.toList, size := source.toList.length + 8
                       context := { jsx := dialect.jsx, typescript := dialect.typescript } } })
    ⟨rfl, rfl, rfl, rfl, rfl, rfl, rfl, rfl, rfl, Nat.lt_add_of_pos_right (by decide)⟩
  refine ⟨⟨tree, q.lexer.settled.reverse⟩, ?_, htree⟩
  have hmodule : Parse.module (Parse.grammar (16 * source.toList.length + 64))
      { lexer := { rest := source.toList, size := source.toList.length + 8
                   context := { jsx := dialect.jsx, typescript := dialect.typescript } } } = .ok tree q :=
    hrun
  simp only [read, hmodule, hq.noted_eq]

end BreakpointProps.Script
