import BreakpointProps.Proofs.Script.Stepping
import BreakpointProps.Script.Parser.Module

/-!
What the readers of scripts give for an element that stands alone, from token to token.
-/

namespace BreakpointProps.Script

/-- The parser stands in front of a token in a script where nothing went wrong so far. -/
structure Parser.Stands (p : Parser) (context : Context) (sight : Sight) : Prop where
  token_eq : p.current.map Lexeme.token = sight.token
  ahead_eq : p.ahead = none
  lexer_shows : p.lexer.Shows context sight

/-- The parser has passed all of a script where nothing went wrong. -/
structure Parser.Finished (p : Parser) : Prop where
  current_eq : p.current = none
  noted_eq : p.lexer.noted = none

/-- The parser with other knowledge. -/
def Parser.knowing (p : Parser) (context : Context) : Parser :=
  { p with lexer := { p.lexer with context } }

theorem Parser.Stands.knowing {p : Parser} {old : Context} {sight : Sight} (hp : p.Stands old sight)
    (context : Context) : (p.knowing context).Stands context sight := by
  obtain ⟨htoken, hahead, hrest, hscopes, hallowed, hlast, _, hregexp, hnoted, hroom⟩ := hp
  exact ⟨htoken, hahead, hrest, hscopes, hallowed, hlast, rfl, hregexp, hnoted, hroom⟩

namespace Parse

open BreakpointProps.Script.Lex (ReadsTags Steps)

/-- The action gives a result, and this holds of the result and of the parser behind it. -/
def Yields {α : Type} (action : Parse α) (p : Parser) (post : α → Parser → Prop) : Prop :=
  ∃ a q, action p = .ok a q ∧ post a q

section Yields

variable {α β : Type} {p : Parser} {post post' : α → Parser → Prop}

theorem Yields.mono {action : Parse α} (haction : Yields action p post)
    (hpost : ∀ a q, post a q → post' a q) : Yields action p post' := by
  obtain ⟨a, q, hrun, ha⟩ := haction
  exact ⟨a, q, hrun, hpost a q ha⟩

@[simp] theorem yields_pure {a : α} : Yields (pure a) p post ↔ post a p := by
  constructor
  · rintro ⟨b, q, hrun, hb⟩
    cases hrun
    exact hb
  · exact fun ha => ⟨a, p, rfl, ha⟩

@[simp] theorem yields_bind {action : Parse α} {next : α → Parse β} {post : β → Parser → Prop} :
    Yields (action >>= next) p post ↔ Yields action p fun a q => Yields (next a) q post := by
  constructor
  · rintro ⟨b, r, hrun, hb⟩
    change EStateM.bind action next p = _ at hrun
    rw [EStateM.bind] at hrun
    cases haction : action p with
    | ok a q =>
        rw [haction] at hrun
        exact ⟨a, q, haction, b, r, hrun, hb⟩
    | error halt q =>
        rw [haction] at hrun
        exact absurd hrun (by simp)
  · rintro ⟨a, q, haction, b, r, hnext, hb⟩
    refine ⟨b, r, ?_, hb⟩
    change EStateM.bind action next p = _
    rw [EStateM.bind, haction]
    exact hnext

@[simp] theorem yields_map {action : Parse α} {f : α → β} {post : β → Parser → Prop} :
    Yields (f <$> action) p post ↔ Yields action p fun a q => post (f a) q := by
  rw [map_eq_pure_bind]
  simp only [yields_bind, yields_pure]

@[simp] theorem yields_get {post : Parser → Parser → Prop} : Yields get p post ↔ post p p :=
  yields_pure

@[simp] theorem yields_modify {f : Parser → Parser} {post : Unit → Parser → Prop} :
    Yields (modify f) p post ↔ post () (f p) := by
  constructor
  · rintro ⟨_, q, hrun, hq⟩
    cases hrun
    exact hq
  · exact fun hq => ⟨(), f p, rfl, hq⟩

@[simp] theorem yields_set {q : Parser} {post : PUnit → Parser → Prop} :
    Yields (set q) p post ↔ post ⟨⟩ q := by
  constructor
  · rintro ⟨_, r, hrun, hr⟩
    cases hrun
    exact hr
  · exact fun hq => ⟨⟨⟩, q, rfl, hq⟩

theorem yields_lex {action : Lex α} {a : α} {t : Lexer} (hrun : action p.lexer = .ok a t) :
    Yields (lex action) p post ↔ post a { p with lexer := t } := by
  have hlex : lex action p = .ok a { p with lexer := t } := by
    rw [lex, hrun]
  constructor
  · rintro ⟨b, q, hq, hb⟩
    rw [hlex] at hq
    cases hq
    exact hb
  · exact fun ha => ⟨a, _, hlex, ha⟩

@[simp] theorem yields_current? {post : Option Token → Parser → Prop} :
    Yields current? p post ↔ post (p.current.map Lexeme.token) p := by
  simp [current?]

@[simp] theorem yields_context {post : Context → Parser → Prop} :
    Yields context p post ↔ post p.lexer.context p := by
  simp [context]

@[simp] theorem yields_at {punct : Punct} {post : Bool → Parser → Prop} :
    Yields (at_ punct) p post ↔
      post ((p.current.map Lexeme.token).any (Token.isPunct punct)) p := by
  simp [at_]

@[simp] theorem yields_atWord {name : String} {post : Bool → Parser → Prop} :
    Yields (atWord name) p post ↔
      post ((p.current.map Lexeme.token).any (Token.isWord name)) p := by
  simp [atWord]

@[simp] theorem yields_atEnd {post : Bool → Parser → Prop} :
    Yields atEnd p post ↔ post (p.current.map Lexeme.token).isNone p := by
  simp [atEnd]

@[simp] theorem yields_position {post : Nat → Parser → Prop} :
    Yields position p post ↔ post ((p.current.map (·.span.lo)).getD p.lastSpan.hi) p := by
  simp [position]

@[simp] theorem yields_spanFrom {start : Nat} {post : Span → Parser → Prop} :
    Yields (spanFrom start) p post ↔ post ⟨start, p.lastSpan.hi⟩ p := by
  simp [spanFrom]

@[simp] theorem yields_afterLineBreak {post : Bool → Parser → Prop} :
    Yields afterLineBreak p post ↔
      post ((p.current.map Lexeme.afterLineBreak).getD false) p := by
  simp [afterLineBreak]

theorem yields_needCurrent {token : Token} (htoken : p.current.map Lexeme.token = some token)
    {post : Token → Parser → Prop} : Yields needCurrent p post ↔ post token p := by
  simp [needCurrent, htoken]

theorem yields_eat_of_ne {punct : Punct}
    (hne : (p.current.map Lexeme.token).any (Token.isPunct punct) = false)
    {post : Bool → Parser → Prop} : Yields (eat punct) p post ↔ post false p := by
  simp [eat, hne]

theorem yields_eat_of_eq {punct : Punct}
    (heq : (p.current.map Lexeme.token).any (Token.isPunct punct) = true)
    {post : Bool → Parser → Prop} :
    Yields (eat punct) p post ↔ Yields bump p fun _ q => post true q := by
  simp [eat, heq]

theorem yields_eatWord_of_ne {name : String}
    (hne : (p.current.map Lexeme.token).any (Token.isWord name) = false)
    {post : Bool → Parser → Prop} : Yields (eatWord name) p post ↔ post false p := by
  simp [eatWord, hne]

theorem yields_and_false {action : Parse Bool} {post : Bool → Parser → Prop} (hpost : post false p) :
    Yields (pure false <&&> action) p post := yields_pure.mpr hpost

theorem yields_bump {lexeme : Option Lexeme} {t : Lexer} (hahead : p.ahead = none)
    (hnext : Lex.next p.lexer = .ok lexeme t) {post : Unit → Parser → Prop}
    (hpost : post () { p with lexer := t, current := lexeme, ahead := none
                              lastSpan := (p.current.map Lexeme.span).getD p.lastSpan }) :
    Yields bump p post := by
  simp only [bump, yields_bind, yields_get, hahead, yields_set]
  apply (yields_lex (p := { p with current := none, ahead := none
                                   lastSpan := (p.current.map Lexeme.span).getD p.lastSpan }) hnext).mpr
  exact yields_modify.mpr hpost

theorem yields_loopSteps_succ {σ : Type} {step : σ → Parse (σ ⊕ β)} {n : Nat} {state : σ}
    {post : β → Parser → Prop} :
    Yields (loopSteps step (n + 1) state) p post ↔
      Yields (step state) p fun next q => match next with
        | .inl state => Yields (loopSteps step n state) q post
        | .inr b => post b q := by
  rw [loopSteps, yields_bind]
  constructor <;>
  · intro hstep
    apply hstep.mono
    rintro (state | b) q hq <;> simpa using hq

/-- A loop whose first step is the last. -/
theorem yields_loop {σ : Type} {step : σ → Parse (σ ⊕ β)} {state : σ} {post : β → Parser → Prop}
    (hstep : Yields (step state) p fun next q => ∃ b, next = .inr b ∧ post b q) :
    Yields (loop state step) p post := by
  simp only [loop, yields_bind, yields_get, yields_loopSteps_succ]
  apply hstep.mono
  rintro _ q ⟨b, rfl, hb⟩
  exact hb

/-- One item and no more. -/
theorem yields_many {test : Parse Bool} {item : Parse α} {post : List α → Parser → Prop}
    (hitem : Yields test p fun more q => more = true ∧ Yields item q fun a r =>
      Yields test r fun more t => more = false ∧ post [a] t) :
    Yields (many test item) p post := by
  simp only [many, loop, yields_bind, yields_get, yields_loopSteps_succ]
  apply hitem.mono
  rintro _ q ⟨rfl, hq⟩
  simp only [↓reduceIte, yields_bind, yields_pure]
  apply hq.mono
  intro a r hr
  apply hr.mono
  rintro _ t ⟨rfl, ht⟩
  simpa using ht

end Yields

/-- Wherever the parser stands before the first token, the action gives such a result and leaves the
parser before the second. -/
def Reads {α : Type} (action : Parse α) (before after : Sight) (result : α → Prop) : Prop :=
  ∀ context, ReadsTags context → ∀ p : Parser, p.Stands context before →
    Yields action p fun a q => q.Stands context after ∧ result a

section Reads

variable {α : Type} {before after : Sight} {result : α → Prop} {action : Parse α}

theorem reads_bump (hsteps : Steps before after) : Reads bump before after fun _ => True := by
  intro context htags p hp
  obtain ⟨lexeme, t, hnext, htoken, ht⟩ := hsteps context htags p.lexer hp.lexer_shows
  exact yields_bump hp.ahead_eq hnext ⟨⟨htoken, rfl, ht⟩, trivial⟩

theorem within_of_ok {f : Context → Context} {p q : Parser} {a : α}
    (hrun : action (p.knowing (f p.lexer.context)) = .ok a q) :
    Parse.within f action p = .ok a (q.knowing p.lexer.context) := by
  simp only [Parser.knowing] at hrun ⊢
  simp only [Parse.within, hrun]

theorem attempt_of_ok {p q : Parser} {a : α} (htypes : p.lexer.context.typescript = true)
    (hrun : action (p.knowing { p.lexer.context with quiet := true }) = .ok a q) :
    Parse.attempt (some <$> action) p =
      .ok (some a) (q.knowing { q.lexer.context with quiet := p.lexer.context.quiet }) := by
  have hmap : (some <$> action) (p.knowing { p.lexer.context with quiet := true }) = .ok (some a) q := by
    change EStateM.map some action _ = _
    rw [EStateM.map, hrun]
  have hnot : ¬ (!p.lexer.context.typescript) = true := by simp [htypes]
  rw [Parse.attempt, if_neg hnot]
  dsimp only [Parser.knowing] at hmap ⊢
  rw [hmap]

theorem yields_within {f : Context → Context} {p : Parser} {post : α → Parser → Prop}
    (hrun : Yields action (p.knowing (f p.lexer.context)) fun a q =>
      post a (q.knowing p.lexer.context)) :
    Yields (Parse.within f action) p post := by
  obtain ⟨a, q, hrun, ha⟩ := hrun
  exact ⟨a, _, within_of_ok hrun, ha⟩

/-- Knowledge that leaves tags as they are makes no difference. -/
theorem Reads.within {f : Context → Context} (haction : Reads action before after result)
    (hf : ∀ c, ReadsTags c → ReadsTags (f c)) : Reads (Parse.within f action) before after result := by
  intro context htags p hp
  obtain rfl : p.lexer.context = context := hp.lexer_shows.context_eq
  apply yields_within
  apply (haction _ (hf _ htags) _ (hp.knowing _)).mono
  exact fun a q ⟨hq, ha⟩ => ⟨hq.knowing _, ha⟩

/-- What is attempted where types are recognised is read, if it can be. -/
theorem Reads.attempt (haction : Reads action before after result) {context : Context}
    (htags : ReadsTags context) (htypes : context.typescript = true) {p : Parser}
    (hp : p.Stands context before) :
    Yields (Parse.attempt (some <$> action)) p fun found q =>
      q.Stands context after ∧ ∃ a, found = some a ∧ result a := by
  obtain ⟨a, q, hrun, hq, ha⟩ := haction { context with quiet := true }
    ⟨htags.jsx, htags.inPropertyName, htags.inType⟩ _ (hp.knowing { context with quiet := true })
  have hcontext : p.lexer.context = context := hp.lexer_shows.context_eq
  subst hcontext
  refine ⟨some a, q.knowing { q.lexer.context with quiet := p.lexer.context.quiet }, ?_, ?_, a, rfl, ha⟩
  · exact attempt_of_ok htypes hrun
  · have hback := hq.knowing { q.lexer.context with quiet := p.lexer.context.quiet }
    rw [hq.lexer_shows.context_eq] at hback ⊢
    exact hback

theorem Reads.mono {result' : α → Prop} (haction : Reads action before after result)
    (hresult : ∀ a, result a → result' a) : Reads action before after result' := by
  intro context htags p hp
  apply (haction context htags p hp).mono
  exact fun a q ⟨hq, ha⟩ => ⟨hq, hresult a ha⟩

end Reads

/-- A node without parts, with this label. -/
def IsLeaf (label : Label) (node : Node) : Prop := ∃ span, node = .leaf label span

section Tag

variable {before middle after : Sight}

theorem reads_tagName {text : String} (htoken : before.token = some (.jsxName text))
    (hsteps : Steps before after) : Reads tagName before after (IsLeaf (.name text)) := by
  intro context htags p hp
  simp only [tagName, yields_bind, yields_position, yields_needCurrent (hp.token_eq.trans htoken)]
  apply (reads_bump hsteps context htags p hp).mono
  rintro _ q ⟨hq, _⟩
  simp only [yields_spanFrom, yields_pure]
  exact ⟨hq, _, rfl⟩

theorem reads_namespacedName {text : String} (htoken : before.token = some (.jsxName text))
    (hsteps : Steps before after) (hcolon : after.token.any (Token.isPunct .colon) = false) :
    Reads namespacedName before after (IsLeaf (.name text)) := by
  intro context htags p hp
  simp only [namespacedName, yields_bind, yields_position]
  apply (reads_tagName htoken hsteps context htags p hp).mono
  rintro node q ⟨hq, hnode⟩
  rw [yields_eat_of_ne (by rwa [hq.token_eq])]
  exact yields_pure.mpr ⟨hq, hnode⟩

theorem reads_elementName {text : String} (htoken : before.token = some (.jsxName text))
    (hsteps : Steps before after) (hcolon : after.token.any (Token.isPunct .colon) = false)
    (hdot : after.token.any (Token.isPunct .dot) = false) :
    Reads elementName before after (IsLeaf (.name text)) := by
  intro context htags p hp
  simp only [elementName, yields_bind, yields_position]
  apply (reads_namespacedName htoken hsteps hcolon context htags p hp).mono
  rintro node q ⟨hq, hnode⟩
  apply yields_loop
  simp only [yields_bind]
  rw [yields_eat_of_ne (by rwa [hq.token_eq])]
  exact yields_pure.mpr ⟨node, rfl, hq, hnode⟩

theorem reads_literal {value raw : String} (htoken : before.token = some (.str value raw))
    (hsteps : Steps before after) : Reads literal before after (IsLeaf (.string value (some raw))) := by
  intro context htags p hp
  simp only [literal, yields_bind, yields_position, yields_needCurrent (hp.token_eq.trans htoken)]
  apply (reads_bump hsteps context htags p hp).mono
  rintro _ q ⟨hq, _⟩
  simp only [yields_spanFrom, yields_pure]
  exact ⟨hq, _, rfl⟩

variable {g : Grammar} {result : Node → Prop}

/-- A container of an expression. -/
def IsContainer (inner : Node → Prop) (node : Node) : Prop :=
  ∃ span part, inner part ∧ node = .mk .container span [part]

theorem reads_expressionContainer {opened closed : Sight} (hopen : Steps before opened)
    (hinner : opened.token.any (Token.isPunct .rbrace) = false)
    (hread : Reads (g .expression) opened closed result)
    (hclose : closed.token.any (Token.isPunct .rbrace) = true) (hsteps : Steps closed after) :
    Reads (expressionContainer g) before after (IsContainer result) := by
  intro context htags p hp
  simp only [expressionContainer, yields_bind, yields_position]
  apply (reads_bump hopen context htags p hp).mono
  rintro _ q ⟨hq, _⟩
  simp only [yields_at, hq.token_eq, hinner, Bool.false_eq_true, ↓reduceIte, yields_bind]
  apply (hread context htags q hq).mono
  rintro node r ⟨hr, hnode⟩
  simp only [expect, yields_bind]
  rw [yields_eat_of_eq (by rwa [hr.token_eq])]
  apply (reads_bump hsteps context htags r hr).mono
  rintro _ t ⟨ht, _⟩
  simp only [Bool.not_true, Bool.false_eq_true, ↓reduceIte, yields_spanFrom, yields_pure]
  exact ⟨ht, _, node, hnode, rfl⟩

theorem reads_attributeValue_string {value raw : String} (htoken : before.token = some (.str value raw))
    (hsteps : Steps before after) :
    Reads (attributeValue g) before after (IsLeaf (.string value (some raw))) := by
  intro context htags p hp
  simp only [attributeValue, yields_bind, yields_needCurrent (hp.token_eq.trans htoken)]
  exact reads_literal htoken hsteps context htags p hp

theorem reads_attributeValue_container (htoken : before.token = some (.punct .lbrace))
    (hread : Reads (expressionContainer g) before after (IsContainer result))
    (hresult : ∀ node, result node → node.label ≠ .emptyExpression) :
    Reads (attributeValue g) before after (IsContainer result) := by
  intro context htags p hp
  simp only [attributeValue, yields_bind, yields_needCurrent (hp.token_eq.trans htoken)]
  apply (hread context htags p hp).mono
  rintro _ q ⟨hq, span, part, hpart, rfl⟩
  have hlabel := hresult part hpart
  split
  · rename_i hparts
    obtain rfl := (List.cons.inj hparts).1
    exact absurd rfl hlabel
  · exact yields_pure.mpr ⟨hq, span, part, hpart, rfl⟩

/-- An attribute with this name. -/
def IsAttribute (name : String) (value : Node → Prop) (node : Node) : Prop :=
  ∃ span nameSpan part, value part ∧ node = .mk .attribute span [.leaf (.name name) nameSpan, part]

theorem reads_tagAttribute {text : String} {assign : Sight}
    (htoken : before.token = some (.jsxName text)) (hname : Steps before assign)
    (hassign : assign.token = some (.punct .assign)) (hsteps : Steps assign middle)
    (hread : Reads (attributeValue g) middle after result) :
    Reads (tagAttribute g) before after (IsAttribute text result) := by
  intro context htags p hp
  simp only [tagAttribute, yields_bind, yields_position]
  rw [yields_eat_of_ne (by rw [hp.token_eq, htoken]; rfl)]
  simp only [Bool.false_eq_true, ↓reduceIte, yields_bind]
  apply (reads_namespacedName htoken hname (by rw [hassign]; rfl) context htags p hp).mono
  rintro _ q ⟨hq, nameSpan, rfl⟩
  rw [yields_eat_of_eq (by rw [hq.token_eq, hassign]; rfl)]
  apply (reads_bump hsteps context htags q hq).mono
  rintro _ r ⟨hr, _⟩
  simp only [↓reduceIte, yields_bind]
  have hwithin := hread.within (f := fun c => { c with inCondition := false, expectsColon := false })
    fun c hc => ⟨hc.jsx, hc.inPropertyName, hc.inType⟩
  apply (hwithin context htags r hr).mono
  rintro value t ⟨ht, hvalue⟩
  simp only [yields_spanFrom, yields_pure]
  exact ⟨ht, _, nameSpan, value, hvalue, rfl⟩

/-- The opening tag of an element with one attribute and nothing between its tags. -/
def IsLoneTag (name : Node) (item : Node → Prop) (node : Node) : Prop :=
  ∃ span part, item part ∧ node = .mk (.openingTag true) span [name, .absent, part]

theorem reads_openingTagAfterName {text : String} {start : Nat} {name : Node} {types : Parse Node}
    {slash close : Sight} (htoken : before.token = some (.jsxName text))
    (hread : Reads (tagAttribute g) before slash result) (hslash : slash.token = some (.punct .slash))
    (hclose : Steps slash close) (hend : close.token = some .tagEnd) (hsteps : Steps close after) :
    Reads (openingTagAfterName g start name types) before after (IsLoneTag name result) := by
  intro context htags p hp
  have htypes : (some (Token.jsxName text)).any (Token.isPunct .lt) = false := rfl
  simp only [openingTagAfterName, yields_bind, yields_context, yields_at, hp.token_eq, htoken, htypes,
    Bool.and_false, Bool.false_eq_true, ↓reduceIte, yields_pure]
  apply yields_many
  simp only [yields_bind, yields_current?, hp.token_eq, htoken, yields_pure, true_and]
  apply (hread context htags p hp).mono
  rintro node q ⟨hq, hnode⟩
  simp only [hq.token_eq, hslash, yields_pure, true_and]
  rw [yields_eat_of_eq (by rw [hq.token_eq, hslash]; rfl)]
  apply (reads_bump hclose context htags q hq).mono
  rintro _ r ⟨hr, _⟩
  simp only [hr.token_eq, hend, yields_bind]
  apply (reads_bump hsteps context htags r hr).mono
  rintro _ t ⟨ht, _⟩
  simp only [yields_spanFrom, yields_pure]
  exact ⟨ht, _, node, hnode, rfl⟩

/-- An element with one attribute and nothing between its tags. -/
def IsLoneElement (name : String) (item : Node → Prop) (node : Node) : Prop :=
  ∃ span nameSpan tag, IsLoneTag (.leaf (.name name) nameSpan) item tag ∧
    node = .mk .element span [tag, .list [], .absent]

theorem reads_element {text name : String} {start : Nat} {types : Parse Node}
    (htoken : before.token = some (.jsxName text)) (hname : Steps before middle)
    (hmiddle : middle.token = some (.jsxName name))
    (hread : ∀ node, Reads (openingTagAfterName g start node types) middle after (IsLoneTag node result)) :
    Reads (element g types start) before after (IsLoneElement text result) := by
  intro context htags p hp
  simp only [element, yields_bind, yields_current?, hp.token_eq, htoken]
  have helement := (reads_elementName htoken hname (by rw [hmiddle]; rfl) (by rw [hmiddle]; rfl)).within
    (f := fun c => { c with joinsAngles := false }) fun c hc => ⟨hc.jsx, hc.inPropertyName, hc.inType⟩
  apply (helement context htags p hp).mono
  rintro _ q ⟨hq, nameSpan, rfl⟩
  apply (hread _ context htags q hq).mono
  rintro _ r ⟨hr, tagSpan, part, hpart, rfl⟩
  simp only [Node.label, yields_bind, yields_spanFrom, yields_pure]
  exact ⟨hr, _, nameSpan, _, ⟨tagSpan, part, hpart, rfl⟩, rfl⟩

end Tag

end Parse

end BreakpointProps.Script
