import BreakpointProps.Proofs.Script.Quoting
import BreakpointProps.Script.Lexer.Next

/-!
Lexer actions that do nothing but pass over a text: which text, and what they give for it.
-/

namespace BreakpointProps.Script

/-- The bytes that a text takes up. -/
def width : List Char → Nat
  | [] => 0
  | c :: text => c.utf8Size + width text

@[simp] theorem width_nil : width [] = 0 := rfl

@[simp] theorem width_cons (c : Char) (text : List Char) :
    width (c :: text) = c.utf8Size + width text := rfl

theorem width_append (text other : List Char) : width (text ++ other) = width text + width other := by
  induction text with
  | nil => simp
  | cons c cs ih => simp [ih, Nat.add_assoc]

/-- The lexer in front of `rest`, after it passed over a text. -/
def Lexer.past (s : Lexer) (text rest : List Char) : Lexer :=
  { s with rest, position := s.position + width text }

@[simp] theorem Lexer.rest_past (s : Lexer) (text rest : List Char) : (s.past text rest).rest = rest := rfl

theorem Lexer.past_past (s : Lexer) (text other rest last : List Char) :
    (s.past text rest).past other last = s.past (text ++ other) last := by
  simp [past, width_append, Nat.add_assoc]

theorem Lexer.past_nil {s : Lexer} {rest : List Char} (hrest : s.rest = rest) : s.past [] rest = s := by
  subst hrest
  rfl

namespace Lex

/-- All that the action does to the lexer is to pass over a text in front of `rest`. -/
structure Passes {α : Type} (action : Lex α) (s : Lexer) (value : α) (text rest : List Char) : Prop where
  rest_eq : s.rest = text ++ rest
  run_eq : action s = .ok value (s.past text rest)

section Passes

variable {α β : Type} {s : Lexer} {text rest : List Char} {a : α} {b : β}

theorem Passes.bind {action : Lex α} {next : α → Lex β} {other : List Char}
    (haction : Passes action s a text (other ++ rest))
    (hnext : Passes (next a) (s.past text (other ++ rest)) b other rest) :
    Passes (action >>= next) s b (text ++ other) rest := by
  refine ⟨by rw [haction.rest_eq, List.append_assoc], ?_⟩
  change EStateM.bind action next s = _
  rw [EStateM.bind, haction.run_eq]
  exact hnext.run_eq.trans (by rw [Lexer.past_past])

/-- An action after which nothing more is passed. -/
theorem Passes.bind_nil {action : Lex α} {next : α → Lex β} (haction : Passes action s a text rest)
    (hnext : Passes (next a) (s.past text rest) b [] rest) :
    Passes (action >>= next) s b text rest := by
  rw [← List.append_nil text]
  exact haction.bind hnext

/-- An action after which the lexer stays as it is. -/
theorem Passes.bind_pure {action : Lex α} {next : α → Lex β} (haction : Passes action s a text rest)
    (hnext : next a (s.past text rest) = .ok b (s.past text rest)) :
    Passes (action >>= next) s b text rest := by
  refine ⟨haction.rest_eq, ?_⟩
  change EStateM.bind action next s = _
  rw [EStateM.bind, haction.run_eq]
  exact hnext

theorem Passes.map {action : Lex α} (f : α → β) (haction : Passes action s a text rest) :
    Passes (f <$> action) s (f a) text rest := by
  refine ⟨haction.rest_eq, ?_⟩
  change EStateM.map f action s = _
  rw [EStateM.map, haction.run_eq]

theorem passes_skip {c : Char} (hrest : s.rest = c :: rest) : Passes skip s () [c] rest := by
  refine ⟨hrest, ?_⟩
  change EStateM.Result.ok () _ = _
  simp [hrest, Lexer.past]

theorem passes_skipMany {n : Nat} (hrest : s.rest = text ++ rest) (hlength : text.length = n) :
    Passes (skipMany n) s () text rest := by
  subst hlength
  induction text generalizing s with
  | nil => exact ⟨hrest, congrArg _ (Lexer.past_nil hrest).symm⟩
  | cons c cs ih =>
      have hskip : Passes skip s () [c] (cs ++ rest) := passes_skip hrest
      exact hskip.bind (ih rfl)

theorem textBetween_append (text rest : List Char) (position : Nat) :
    textBetween (text ++ rest) position (position + width text) = text := by
  induction text generalizing position with
  | nil => cases rest <;> simp [textBetween]
  | cons c cs ih =>
      have hpos := c.utf8Size_pos
      rw [List.cons_append, textBetween, if_pos (by simp; omega), width_cons, ← Nat.add_assoc, ih]

/-- The text that an action passes over. -/
theorem Passes.withText {action : Lex α} (haction : Passes action s a text rest) :
    Passes (Lex.withText action) s (a, String.ofList text) text rest := by
  refine ⟨haction.rest_eq, ?_⟩
  have hread : Lex.withText action s =
      .ok (a, String.ofList (textBetween s.rest s.position (s.position + width text)))
        (s.past text rest) := by
    change EStateM.bind action _ s = _
    rw [EStateM.bind, haction.run_eq]
    rfl
  rw [hread, haction.rest_eq, textBetween_append]

theorem skipWhile_go_append {p : Char → Bool} (htext : ∀ c ∈ text, p c = true)
    (hrest : rest.head?.any p = false) (position : Nat) :
    skipWhile.go p (text ++ rest) position = (rest, position + width text) := by
  induction text generalizing position with
  | nil =>
      cases rest with
      | nil => rfl
      | cons c cs =>
          have hc : p c = false := hrest
          simp [skipWhile.go, hc]
  | cons c cs ih =>
      rw [List.cons_append, skipWhile.go, if_pos (htext c List.mem_cons_self),
        ih fun d hd => htext d (List.mem_cons_of_mem _ hd), width_cons, Nat.add_assoc]

theorem passes_skipWhile {p : Char → Bool} (hs : s.rest = text ++ rest)
    (htext : ∀ c ∈ text, p c = true) (hrest : rest.head?.any p = false) :
    Passes (skipWhile p) s () text rest := by
  have hgo := skipWhile_go_append htext hrest s.position
  rw [← hs] at hgo
  refine ⟨hs, ?_⟩
  change EStateM.Result.ok () _ = _
  simp only [hgo]
  rfl

theorem passes_pure (a : α) (hs : s.rest = rest) : Passes (pure a) s a [] rest :=
  ⟨hs, congrArg (EStateM.Result.ok a) (Lexer.past_nil hs).symm⟩

theorem passes_get_bind {next : Lexer → Lex β} (hnext : Passes (next s) s b text rest) :
    Passes (get >>= next) s b text rest := ⟨hnext.rest_eq, hnext.run_eq⟩

theorem passes_peek_bind {next : Option Char → Lex β} (hnext : Passes (next s.rest.head?) s b text rest) :
    Passes (peek >>= next) s b text rest := ⟨hnext.rest_eq, hnext.run_eq⟩

end Passes

section Strings

open Quoting (Spells)

variable {s : Lexer} {quote : Char} {after body value : List Char}

/-- The text between the quotes of a string is passed together with the closing quote. -/
theorem passes_stringSteps (hquote : quote ≠ '\\') (hspells : Spells quote after body value) {n : Nat}
    (hfuel : body.length < n) (hs : s.rest = body ++ quote :: after) (acc : List Char) :
    Passes (stringSteps quote n acc) s (value.reverse ++ acc) (body ++ [quote]) after := by
  -- Each step takes what stands for one part of the value, so the induction is on the spelling.
  induction hspells generalizing n s acc with
  | nil =>
      obtain ⟨n, rfl⟩ := Nat.exists_eq_add_one.mpr (Nat.zero_lt_of_lt hfuel)
      rw [stringSteps]
      apply passes_peek_bind
      rw [hs]
      simp only [List.nil_append, List.head?_cons, beq_self_eq_true, ↓reduceIte]
      exact (passes_skip hs).bind_pure rfl
  | @plain c body value hne hback hfeed hreturn hrest ih =>
      obtain ⟨n, rfl⟩ := Nat.exists_eq_add_one.mpr (Nat.zero_lt_of_lt hfuel)
      rw [stringSteps]
      apply passes_peek_bind
      rw [hs]
      simp only [List.cons_append, List.head?_cons, beq_eq_false_iff_ne.mpr hne,
        beq_eq_false_iff_ne.mpr hback, beq_eq_false_iff_ne.mpr hfeed, beq_eq_false_iff_ne.mpr hreturn,
        Bool.or_self, Bool.false_eq_true, ↓reduceIte]
      have hskip : Passes skip s () [c] (body ++ [quote] ++ after) := passes_skip (by simpa using hs)
      rw [List.reverse_cons, List.append_assoc]
      apply hskip.bind
      exact ih (Nat.lt_of_succ_lt_succ hfuel) (List.append_assoc _ _ _) (c :: acc)
  | @escape taken cs body value hread hrest ih =>
      obtain ⟨n, rfl⟩ := Nat.exists_eq_add_one.mpr (Nat.zero_lt_of_lt hfuel)
      rw [stringSteps]
      apply passes_peek_bind
      rw [hs]
      simp only [List.cons_append, List.head?_cons, beq_eq_false_iff_ne.mpr hquote.symm,
        beq_self_eq_true, Bool.false_eq_true, ↓reduceIte]
      have hskip : Passes skip s () ['\\'] (taken ++ (body ++ [quote]) ++ after) :=
        passes_skip (by simpa using hs)
      have hread : Escape.read false (taken ++ (body ++ [quote]) ++ after) =
          ⟨.ok cs, taken.length, []⟩ := by simpa using hread
      rw [List.reverse_append, List.append_assoc, List.append_assoc]
      apply passes_get_bind
      apply hskip.bind
      apply passes_get_bind
      rw [Lexer.rest_past, hread]
      apply (passes_skipMany (List.append_assoc _ _ _) rfl).bind
      exact ih (by simp at hfuel; omega) (List.append_assoc _ _ _) (cs.reverse ++ acc)

theorem passes_string (hquote : quote ≠ '\\') (hspells : Spells quote after body value)
    (hfuel : body.length < s.size) (hs : s.rest = quote :: body ++ [quote] ++ after) :
    Passes string s (.str (String.ofList value) (String.ofList (quote :: body ++ [quote])))
      (quote :: body ++ [quote]) after := by
  have hsteps := passes_stringSteps hquote hspells hfuel
    (s := s.past [quote] (body ++ [quote] ++ after)) (List.append_assoc _ _ _) []
  rw [List.append_nil] at hsteps
  rw [string]
  refine (Passes.withText (?hread : Passes _ s value.reverse _ after)).bind_pure ?_
  · apply passes_peek_bind
    rw [hs]
    apply (passes_skip hs).bind
    apply passes_get_bind
    exact hsteps
  · change EStateM.Result.ok (Token.str (String.ofList value.reverse.reverse) _) _ = _
    rw [List.reverse_reverse]

/-- A text in which no reference and no line end counts twice is the value of an attribute as it is. -/
theorem ofAttribute_eq_self {text : List Char} (htext : ∀ c ∈ text, c ≠ '&' ∧ c ≠ '\r') :
    Decoded.ofAttribute 0 text = { value := text } := by
  induction text with
  | nil => rfl
  | cons c cs ih =>
      have hrest := ih fun d hd => htext d (List.mem_cons_of_mem _ hd)
      obtain ⟨hamp, hreturn⟩ := htext c List.mem_cons_self
      rw [Decoded.ofAttribute, hrest]
      · rfl
      · exact fun h => hamp h
      · exact fun _ h _ => hreturn h

/-- The value of an attribute is the text between its quotes, if no reference is in it. -/
theorem passes_jsxString (hbody : ∀ c ∈ body, c ≠ quote ∧ c ≠ '&' ∧ c ≠ '\r')
    (hafter : 2 ≤ after.length) (hs : s.rest = quote :: body ++ [quote] ++ after) :
    Passes jsxString s (.str (String.ofList body) (String.ofList (quote :: body ++ [quote])))
      (quote :: body ++ [quote]) after := by
  have hdecoded : Decoded.ofAttribute 0 body = { value := body } :=
    ofAttribute_eq_self fun c hc => (hbody c hc).2
  have hhead : s.rest.head?.getD '"' = quote := by
    rw [hs]
    rfl
  have hwhile : Passes (withText (skipWhile (· != quote))) (s.past [quote] (body ++ [quote] ++ after))
      ((), String.ofList body) body ([quote] ++ after) := by
    apply Passes.withText
    apply passes_skipWhile (List.append_assoc _ _ _)
    · intro c hc
      exact bne_iff_ne.mpr (hbody c hc).1
    · simp
  rw [jsxString]
  refine (Passes.withText (?hread : Passes _ s body _ after)).bind_pure rfl
  apply passes_peek_bind
  rw [hhead]
  apply (passes_skip hs).bind
  apply hwhile.bind
  simp only [String.toList_ofList, hdecoded, Bool.false_eq_true, ↓reduceIte]
  apply passes_get_bind
  -- The source goes on behind the closing quote, or the string would be noted as unterminated.
  rcases after with _ | ⟨_, _ | ⟨_, more⟩⟩
  · exact absurd hafter (by simp)
  · exact absurd hafter (by simp)
  · exact (passes_skip rfl).bind_pure rfl

end Strings

section Tokens

variable {s : Lexer} {token : Token} {text rest : List Char}

/-- The name of a tag or an attribute as it is written. -/
structure IsTagName (name : List Char) : Prop where
  starts : name.head?.any Text.isIdentifierStart = true
  continues : ∀ c ∈ name, Text.isIdentifierPart c = true ∨ c = '-'

instance (name : List Char) : Decidable (IsTagName name) :=
  decidable_of_iff
    (name.head?.any Text.isIdentifierStart = true ∧
      name.all (fun c => Text.isIdentifierPart c || c == '-') = true)
    ⟨fun h => ⟨h.1, by simpa using h.2⟩, fun h => ⟨h.starts, by simpa using h.continues⟩⟩

theorem IsTagName.exists_cons {name : List Char} (hname : IsTagName name) :
    ∃ c cs, name = c :: cs ∧ Text.isIdentifierStart c = true := by
  cases name with
  | nil => exact absurd hname.starts (by simp)
  | cons c cs => exact ⟨c, cs, rfl, hname.starts⟩

theorem passes_jsxWord {name : List Char} (hname : IsTagName name) (hs : s.rest = name ++ rest)
    (hrest : rest.head?.any (fun c => Text.isIdentifierPart c || c == '-') = false) :
    Passes jsxWord s (.jsxName (String.ofList name)) name rest := by
  have hwhile : Passes (skipWhile fun c => Text.isIdentifierPart c || c == '-') s () name rest := by
    apply passes_skipWhile hs _ hrest
    intro c hc
    simpa using hname.continues c hc
  apply hwhile.withText.bind_pure
  rfl

/-- The lexer reads a script with tags, and is neither in a type nor in the name of a property. -/
structure ReadsTags (context : Context) : Prop where
  jsx : context.jsx = true
  inPropertyName : context.inPropertyName = false
  inType : context.inType = false

/-- In a tag, tokens are read as those of a tag first. -/
theorem Passes.tokenHere_of_tag (htag : Passes tagToken? s (some token) text rest)
    (htags : ReadsTags s.context) (hscope : (s.scopes.head? == some .markup) = false) :
    Passes tokenHere s (some token) text rest := by
  rw [tokenHere]
  apply passes_get_bind
  simp only [htags.jsx, htags.inPropertyName, htags.inType, hscope, Bool.not_false, Bool.and_self,
    Bool.and_false, Bool.false_eq_true, ↓reduceIte]
  exact htag.bind_pure rfl

/-- What is no token of a tag is read as it is anywhere. -/
theorem Passes.tokenHere_of_plain (hplain : Passes (plainToken s.size) s (some token) text rest)
    (htags : ReadsTags s.context) (htag : tagToken? s = .ok none s)
    (hmarkup : (s.scopes.head? == some .markup) = false)
    (htemplate : (s.scopes.head? == some .template) = false) :
    Passes tokenHere s (some token) text rest := by
  rw [tokenHere]
  apply passes_get_bind
  simp only [htags.jsx, htags.inPropertyName, htags.inType, hmarkup, htemplate, Bool.not_false,
    Bool.and_self, Bool.and_false, Bool.false_eq_true, ↓reduceIte]
  refine ⟨hplain.rest_eq, ?_⟩
  change EStateM.bind tagToken? _ s = _
  rw [EStateM.bind, htag]
  exact hplain.run_eq

/-- One token of the common kind. -/
theorem Passes.plainToken {c : Char} {cs : List Char} (hs : s.rest = c :: cs) (hc : c ≠ '\x00')
    (htoken : Passes plainTokenOnce s (some token) text rest) (hsize : 0 < s.size) :
    Passes (Lex.plainToken s.size) s (some token) text rest := by
  obtain ⟨n, hn⟩ := Nat.exists_eq_add_one.mpr hsize
  rw [hn, Lex.plainToken]
  apply passes_peek_bind
  rw [hs, List.head?_cons]
  split
  · contradiction
  · rename_i hzero
    exact absurd (Option.some.inj hzero) hc
  · exact htoken.bind_pure rfl

/-- A brace or a semicolon. -/
theorem passes_single {c : Char} {p : Punct}
    (hc : (c, p) ∈ [('{', Punct.lbrace), ('}', .rbrace), (';', .semi)]) (hs : s.rest = c :: rest) :
    Passes plainTokenOnce s (some (.punct p)) [c] rest := by
  rw [plainTokenOnce]
  apply passes_get_bind
  rw [hs]
  simp only [List.mem_cons, Prod.mk.injEq, List.not_mem_nil, or_false] at hc
  rcases hc with ⟨rfl, rfl⟩ | ⟨rfl, rfl⟩ | ⟨rfl, rfl⟩ <;> exact (passes_skip hs).bind_pure rfl

theorem eat_of_ne {c : Char} (hne : s.rest.head? ≠ some c) : eat c s = .ok false s := by
  have heat : eat c s =
      (if (s.rest.head? == some c) = true then do skip; return true else return false : Lex Bool) s := rfl
  rw [heat, if_neg (by simpa using hne)]
  rfl

/-- An action that begins with a look for a character that is not there. -/
theorem passes_eat_bind {α : Type} {next : Bool → Lex α} {a : α} {c : Char}
    (hne : s.rest.head? ≠ some c) (hnext : Passes (next false) s a text rest) :
    Passes (eat c >>= next) s a text rest := by
  refine ⟨hnext.rest_eq, ?_⟩
  change EStateM.bind (eat c) next s = _
  rw [EStateM.bind, eat_of_ne hne]
  exact hnext.run_eq

theorem passes_assign (hs : s.rest = '=' :: rest) (hassign : rest.head? ≠ some '=')
    (harrow : rest.head? ≠ some '>') :
    Passes plainTokenOnce s (some (.punct .assign)) ['='] rest := by
  rw [plainTokenOnce]
  apply passes_get_bind
  rw [hs]
  apply passes_get_bind
  apply (passes_skip hs).bind_nil
  apply passes_eat_bind hassign
  apply passes_eat_bind harrow
  exact passes_pure _ rfl

theorem passes_slash (hs : s.rest = '/' :: rest) (hassign : rest.head? ≠ some '=') :
    Passes plainTokenOnce s (some (.punct .slash)) ['/'] rest := by
  rw [plainTokenOnce]
  apply passes_get_bind
  rw [hs]
  apply (passes_skip hs).bind_nil
  apply Passes.map
  apply passes_eat_bind hassign
  exact passes_pure _ rfl

section Tag

variable (hscope : s.scopes.head? = some .openingTag)
include hscope

theorem passes_tagName {name : List Char} (hname : IsTagName name) (hs : s.rest = name ++ rest)
    (hrest : rest.head?.any (fun c => Text.isIdentifierPart c || c == '-') = false) :
    Passes tagToken? s (some (.jsxName (String.ofList name))) name rest := by
  have hword := passes_jsxWord hname hs hrest
  obtain ⟨c, cs, rfl, hstart⟩ := hname.exists_cons
  rw [tagToken?]
  apply passes_get_bind
  rw [hs]
  simp only [List.cons_append, hscope, beq_self_eq_true, Bool.true_or, ↓reduceIte, hstart]
  exact hword.bind_pure rfl

theorem passes_tagEnd (hs : s.rest = '>' :: rest) : Passes tagToken? s (some .tagEnd) ['>'] rest := by
  have hstart : Text.isIdentifierStart '>' = false := by decide
  rw [tagToken?]
  apply passes_get_bind
  rw [hs]
  simp only [hscope, beq_self_eq_true, Bool.true_or, ↓reduceIte, hstart, Bool.false_eq_true]
  exact (passes_skip hs).bind_pure rfl

theorem passes_tagString {quote : Char} {body : List Char} (hquote : quote = '"' ∨ quote = '\'')
    (hbody : ∀ c ∈ body, c ≠ quote ∧ c ≠ '&' ∧ c ≠ '\r') (hrest : 2 ≤ rest.length)
    (hs : s.rest = quote :: body ++ [quote] ++ rest) :
    Passes tagToken? s (some (.str (String.ofList body) (String.ofList (quote :: body ++ [quote]))))
      (quote :: body ++ [quote]) rest := by
  have hstring := passes_jsxString hbody hrest hs
  have hstart : Text.isIdentifierStart quote = false := by rcases hquote with rfl | rfl <;> decide
  have hend : (quote == '>') = false := by rcases hquote with rfl | rfl <;> decide
  have hopen : (quote == '"' || quote == '\'') = true := by rcases hquote with rfl | rfl <;> decide
  rw [tagToken?]
  apply passes_get_bind
  rw [hs]
  simp only [List.cons_append, hscope, beq_self_eq_true, Bool.true_or, ↓reduceIte, hstart, hend,
    hopen, Bool.and_self, Bool.false_eq_true]
  exact hstring.bind_pure rfl

end Tag

/-- The angle of an opening tag where an expression may start. -/
theorem passes_tagStart {c : Char} {cs : List Char} (hs : s.rest = '<' :: c :: cs)
    (hc : c ≠ '!' ∧ c ≠ '<') (hallowed : s.expressionAllowed = true)
    (hscope : s.scopes.head? = some .braceStatement) :
    Passes tagToken? s (some .tagStart) ['<'] (c :: cs) := by
  have hbang : (some c != some '!') = true := by simpa using hc.1
  have hscopes : (some Scope.braceStatement == some .openingTag ||
      some Scope.braceStatement == some .closingTag) = false := by decide
  have hmarker : "<<<<<< ".toList.isPrefixOf (c :: cs) = false := by
    have hne : ('<' == c) = false := beq_eq_false_iff_ne.mpr hc.2.symm
    simp [List.isPrefixOf, hne]
  rw [tagToken?]
  apply passes_get_bind
  rw [hs]
  simp only [hscope, hscopes, hallowed, List.head?_cons, hbang, beq_self_eq_true, Bool.and_self,
    Bool.false_eq_true, ↓reduceIte]
  apply (passes_skip hs).bind_nil
  apply passes_get_bind
  simp only [Lexer.rest_past, hmarker, Bool.and_false, Bool.false_eq_true, ↓reduceIte]
  exact passes_pure _ rfl

/-- What is no token of a tag. -/
theorem tagToken?_of_other {c : Char} {cs : List Char} (hs : s.rest = c :: cs)
    (hstart : Text.isIdentifierStart c = false) (hangle : c ≠ '<') (hend : c ≠ '>')
    (hquote : s.scopes.head? = some .openingTag → c ≠ '"' ∧ c ≠ '\'') :
    tagToken? s = .ok none s := by
  have hstring : ((c == '"' || c == '\'') && s.scopes.head? == some .openingTag) = false := by
    cases hscope : s.scopes.head? == some .openingTag with
    | false => exact Bool.and_false _
    | true =>
        have hne := hquote (beq_iff_eq.mp hscope)
        simp [hne.1, hne.2]
  have hnone : Passes tagToken? s none [] s.rest := by
    rw [tagToken?]
    apply passes_get_bind
    rw [hs]
    simp only [hstart, beq_eq_false_iff_ne.mpr hangle, beq_eq_false_iff_ne.mpr hend, hstring,
      Bool.false_and, Bool.false_eq_true, ↓reduceIte, ite_self]
    exact passes_pure _ hs
  rw [hnone.run_eq, Lexer.past_nil rfl]

end Tokens

section Next

variable {s : Lexer} {gap text rest : List Char}

/-- A token starts here, and no blank, line end or comment. -/
structure StartsToken (text : List Char) : Prop where
  head : ∃ c, text.head? = some c ∧ isBlank c = false ∧ isLineEnd c = false
  no_comment : text.head? = some '/' → text[1]? ≠ some '/' ∧ text[1]? ≠ some '*'

theorem passes_blanks (hs : s.rest = gap ++ rest)
    (hgap : ∀ c ∈ gap, isBlank c = true ∧ isLineEnd c = false)
    (hrest : rest.head?.any (fun c => isBlank c || isLineEnd c) = false) :
    Passes blanks s () gap rest := by
  have hwhile : Passes (skipWhile fun c => isBlank c || isLineEnd c) s () gap rest := by
    apply passes_skipWhile hs _ hrest
    intro c hc
    simp [(hgap c hc).1]
  have hends : gap.any isLineEnd = false := by
    rw [List.any_eq_false]
    intro c hc
    simp [(hgap c hc).2]
  rw [blanks]
  apply passes_get_bind
  apply hwhile.bind_nil
  apply passes_get_bind
  rw [hs, Lexer.past, textBetween_append, hends]
  exact passes_pure _ rfl

/-- In front of a token, a gap of blanks is passed and nothing else. -/
theorem passes_skipSpace (hs : s.rest = gap ++ rest)
    (hgap : ∀ c ∈ gap, isBlank c = true ∧ isLineEnd c = false) (hrest : StartsToken rest)
    (hsize : 0 < s.size) : Passes skipSpace s () gap rest := by
  obtain ⟨c, hhead, hblank, hend⟩ := hrest.head
  obtain ⟨n, hn⟩ := Nat.exists_eq_add_one.mpr hsize
  rw [skipSpace]
  apply passes_get_bind
  rw [hn, skipSpaceSteps]
  apply (passes_blanks hs hgap (by simp [hhead, hblank, hend])).bind_nil
  apply passes_peek_bind
  rw [Lexer.rest_past]
  split
  · rename_i hslash
    have hcomment := hrest.no_comment (beq_iff_eq.mp hslash)
    have hsecond : Passes peekSecond (s.past gap rest) rest[1]? [] rest :=
      passes_get_bind (passes_pure _ rfl)
    apply hsecond.bind_nil
    split
    · exact absurd ‹_› hcomment.1
    · exact absurd ‹_› hcomment.2
    · exact passes_pure _ rfl
  · exact passes_pure _ rfl

end Next

end Lex

end BreakpointProps.Script
