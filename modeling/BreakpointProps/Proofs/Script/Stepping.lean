import BreakpointProps.Proofs.Script.Filler
import BreakpointProps.Proofs.Script.Lexing

/-!
From token to token: what the lexer has in front of it before each token of an element that stands alone,
and what it expects behind it.
-/

namespace BreakpointProps.Script

/-- What a reader has behind and in front of it. -/
structure Sight where
  /-- The last token. -/
  token : Option Token
  rest : List Char
  /-- The enclosing scopes, innermost first. -/
  scopes : List Scope
  /-- May an expression start here? -/
  allowed : Bool

/-- The lexer when it begins with a token. -/
def Lexer.begun (s : Lexer) : Lexer := { s with lineBreak := s.atStart, atStart := false }

/-- The lexer stands in a script where nothing went wrong so far. -/
structure Lexer.Shows (s : Lexer) (context : Context) (sight : Sight) : Prop where
  rest_eq : s.rest = sight.rest
  scopes_eq : s.scopes = sight.scopes
  allowed_eq : s.expressionAllowed = sight.allowed
  last_eq : s.last = sight.token
  context_eq : s.context = context
  regexpFrom_eq : s.regexpFrom = none
  noted_eq : s.noted = none
  room : s.rest.length < s.size

/-- A lexer that is in sight is known in all that decides how a token changes its scopes. -/
theorem Lexer.Shows.eq_with {s : Lexer} {context : Context} {sight : Sight}
    (hshows : s.Shows context sight) :
    s = { s with context, scopes := sight.scopes, last := sight.token } := by
  rw [← hshows.context_eq, ← hshows.scopes_eq, ← hshows.last_eq]

namespace Lex

theorem run_bind {α β : Type} {action : Lex α} {next : α → Lex β} {s t : Lexer} {a : α}
    (haction : action s = .ok a t) : (action >>= next) s = next a t := by
  change EStateM.bind action next s = _
  rw [EStateM.bind, haction]

variable {s : Lexer} {context : Context} {sight : Sight} {gap text rest : List Char} {token : Token}
  {scopes : List Scope} {allowed : Bool}

theorem run_get_bind {β : Type} {next : Lexer → Lex β} (s : Lexer) : (get >>= next) s = next s s := rfl

theorem run_begin_bind {β : Type} {next : Unit → Lex β} (s : Lexer) :
    ((modify fun s => { s with lineBreak := s.atStart, atStart := false }) >>= next) s =
      next () s.begun := rfl

/-- A token is read behind what is passed in front of it, unless the source ends there. -/
theorem next_of_skipSpace {s t : Lexer} (hregexp : s.regexpFrom = none)
    (hmark : s.rest.head? ≠ some '#') (hkeeps : s.scopes.head?.any Scope.keepsBlanks = false)
    (hspace : skipSpace s.begun = .ok () t) :
    next s = (if t.rest.head?.isNone then do
        settleComments
        return none
      else do
        match ← orMalformed tokenHere with
        | none => return none
        | some token =>
          let lineBreak := (← get).lineBreak
          modify (·.afterToken token t.position)
          return some ⟨token, ⟨t.position, (← get).position⟩, lineBreak⟩ : Lex (Option Lexeme)) t := by
  have hstart : startsWith "#!" s = .ok false s := by
    have hprefix : "#!".toList.isPrefixOf s.rest = false := by
      cases hrest : s.rest with
      | nil => rfl
      | cons c cs =>
          have hne : ('#' == c) = false := by
            rw [beq_eq_false_iff_ne]
            rintro rfl
            exact hmark (by rw [hrest]; rfl)
          simp [List.isPrefixOf, hne]
    rw [← hprefix]
    rfl
  have hkeeps : (!s.begun.scopes.head?.any Scope.keepsBlanks) = true := by
    rw [Bool.not_eq_true']
    exact hkeeps
  have hpeek : peek t = .ok t.rest.head? t := rfl
  rw [next, run_get_bind, hregexp]
  simp only []
  rw [run_get_bind, run_bind hstart, Bool.and_false, if_neg Bool.false_ne_true,
    run_begin_bind, run_get_bind, if_pos hkeeps, run_bind hspace, run_get_bind]
  exact run_bind hpeek

theorem next_eq {s t u : Lexer} (hregexp : s.regexpFrom = none)
    (hmark : s.rest.head? ≠ some '#') (hkeeps : s.scopes.head?.any Scope.keepsBlanks = false)
    (hspace : skipSpace s.begun = .ok () t) (hrest : t.rest ≠ [])
    (htoken : tokenHere t = .ok (some token) u) :
    next s = .ok (some ⟨token, ⟨t.position, u.position⟩, u.lineBreak⟩)
      (u.afterToken token t.position) := by
  have hsome : t.rest.head?.isNone = false := by
    cases hnil : t.rest with
    | nil => exact absurd hnil hrest
    | cons c cs => rfl
  have hhere : orMalformed tokenHere t = .ok (some token) u := by
    rw [orMalformed, htoken]
  rw [next_of_skipSpace hregexp hmark hkeeps hspace, hsome, if_neg Bool.false_ne_true,
    run_bind hhere]
  rfl

/-- A gap and a token stand in front of the lexer, where blanks carry no meaning. -/
structure Faces (sight : Sight) (gap text rest : List Char) : Prop where
  rest_eq : sight.rest = gap ++ (text ++ rest)
  isBlank_gap : ∀ c ∈ gap, isBlank c = true ∧ isLineEnd c = false
  starts : StartsToken (text ++ rest)
  no_mark : sight.rest.head? ≠ some '#'
  no_text : sight.scopes.head?.any Scope.keepsBlanks = false

/-- A token, and how it changes what the lexer expects. -/
theorem next_of_passes (hshows : s.Shows context sight) (hfaces : Faces sight gap text rest)
    (htoken : ∀ t : Lexer, t.Shows context { sight with rest := text ++ rest } →
      Passes tokenHere t (some token) text rest)
    (hafter : ∀ t : Lexer, t.Shows context { sight with rest } →
      t.scopesAfter token = (scopes, allowed)) :
    ∃ lexeme t, next s = .ok (some lexeme) t ∧ lexeme.token = token ∧
      t.Shows context ⟨some token, rest, scopes, allowed⟩ := by
  obtain ⟨hs, hscopes, hallowed, hlast, hcontext, hregexp, hnoted, hroom⟩ := hshows
  obtain ⟨hrest, hgap, hstarts, hhash, hkeeps⟩ := hfaces
  have hlength : (text ++ rest).length ≤ s.rest.length := by
    rw [hs, hrest]
    exact (List.suffix_append gap (text ++ rest)).length_le
  have hspace := passes_skipSpace (s := s.begun) (hs.trans hrest) hgap hstarts
    (Nat.zero_lt_of_lt hroom)
  have hin : (s.begun.past gap (text ++ rest)).Shows context { sight with rest := text ++ rest } :=
    ⟨rfl, hscopes, hallowed, hlast, hcontext, hregexp, hnoted, Nat.lt_of_le_of_lt hlength hroom⟩
  have hout : ((s.begun.past gap (text ++ rest)).past text rest).Shows context { sight with rest } := by
    refine ⟨rfl, hscopes, hallowed, hlast, hcontext, hregexp, hnoted, Nat.lt_of_le_of_lt ?_ hroom⟩
    rw [List.length_append] at hlength
    exact Nat.le_trans (Nat.le_add_left _ _) hlength
  have hne : text ++ rest ≠ [] := by
    obtain ⟨c, hhead, _⟩ := hstarts.head
    rintro hnil
    rw [hnil] at hhead
    exact absurd hhead (by simp)
  have hnext := next_eq hregexp (by rwa [hs]) (by rwa [hscopes]) hspace.run_eq hne (htoken _ hin).run_eq
  refine ⟨_, _, hnext, rfl, ?_⟩
  have hscopesAfter := hafter _ hout
  refine ⟨rfl, ?_, ?_, rfl, hcontext, hregexp, hnoted, hout.room⟩
  · exact congrArg Prod.fst hscopesAfter
  · exact congrArg Prod.snd hscopesAfter

theorem blanks_of_isSpace {s : Lexer} (hspace : ∀ c ∈ s.rest, isSpace c = true) :
    ∃ t, blanks s = .ok () t ∧ t.rest = [] ∧ t.noted = s.noted := by
  have hwhile : Passes (skipWhile fun c => isBlank c || isLineEnd c) s () s.rest [] :=
    passes_skipWhile (List.append_nil _).symm hspace rfl
  rw [blanks, run_get_bind, run_bind hwhile.run_eq, run_get_bind]
  split
  · exact ⟨_, rfl, rfl, rfl⟩
  · exact ⟨_, rfl, rfl, rfl⟩

/-- Behind the last token there is nothing but blanks and line ends. -/
theorem next_of_end (hshows : s.Shows context sight) (hspace : ∀ c ∈ sight.rest, isSpace c = true)
    (hkeeps : sight.scopes.head?.any Scope.keepsBlanks = false) :
    ∃ t, next s = .ok none t ∧ t.noted = none := by
  obtain ⟨hs, hscopes, _, _, _, hregexp, hnoted, hroom⟩ := hshows
  rw [← hs] at hspace
  have hmark : s.rest.head? ≠ some '#' := by
    intro hhead
    obtain ⟨cs, hcs⟩ := List.head?_eq_some_iff.mp hhead
    exact absurd (hspace '#' (by simp [hcs])) (by decide)
  obtain ⟨t, hblanks, hrest, hsame⟩ := blanks_of_isSpace (s := s.begun) hspace
  have hskip : skipSpace s.begun = .ok () t := by
    have hpeek : peek t = .ok none t := by
      change EStateM.Result.ok t.rest.head? t = _
      rw [hrest]
      rfl
    obtain ⟨n, hn⟩ := Nat.exists_eq_add_one.mpr (Nat.zero_lt_of_lt hroom)
    rw [skipSpace, run_get_bind]
    change skipSpaceSteps s.size s.begun = _
    rw [hn, skipSpaceSteps, run_bind hblanks, run_bind hpeek]
    rfl
  rw [next_of_skipSpace hregexp hmark (by rwa [hscopes]) hskip, hrest]
  exact ⟨_, rfl, hsame.trans hnoted⟩

/-- From what is in front of it, the lexer reads one token. -/
def Steps (before after : Sight) : Prop :=
  ∀ context, ReadsTags context → ∀ s : Lexer, s.Shows context before →
    ∃ lexeme t, next s = .ok (some lexeme) t ∧ some lexeme.token = after.token ∧ t.Shows context after

theorem not_keepsBlanks {scope : Option Scope} (hkeeps : scope.any Scope.keepsBlanks = false) :
    (scope == some .markup) = false ∧ (scope == some .template) = false := by
  constructor <;>
  · rw [beq_eq_false_iff_ne]
    rintro rfl
    exact absurd hkeeps (by decide)

/-- A token with a meaning of its own in a tag. -/
theorem steps_of_tag (hfaces : Faces sight gap text rest)
    (htoken : ∀ context, ReadsTags context → ∀ t : Lexer,
      t.Shows context { sight with rest := text ++ rest } → Passes tagToken? t (some token) text rest)
    (hafter : ∀ context, ReadsTags context → ∀ t : Lexer, t.Shows context { sight with rest } →
      t.scopesAfter token = (scopes, allowed)) :
    Steps sight ⟨some token, rest, scopes, allowed⟩ := by
  intro context htags s hs
  obtain ⟨lexeme, t, hnext, hlexeme, ht⟩ := next_of_passes hs hfaces (fun u hu => by
    apply (htoken context htags u hu).tokenHere_of_tag (hu.context_eq ▸ htags)
    rw [hu.scopes_eq]
    exact (not_keepsBlanks hfaces.no_text).1) (hafter context htags)
  exact ⟨lexeme, t, hnext, congrArg some hlexeme, ht⟩

/-- A token that is read in a tag as it is anywhere. -/
theorem steps_of_plain (hfaces : Faces sight gap text rest)
    (htag : ∀ context, ReadsTags context → ∀ t : Lexer,
      t.Shows context { sight with rest := text ++ rest } → tagToken? t = .ok none t)
    (htoken : ∀ context, ReadsTags context → ∀ t : Lexer,
      t.Shows context { sight with rest := text ++ rest } → Passes plainTokenOnce t (some token) text rest)
    (hzero : (text ++ rest).head? ≠ some '\x00')
    (hafter : ∀ context, ReadsTags context → ∀ t : Lexer, t.Shows context { sight with rest } →
      t.scopesAfter token = (scopes, allowed)) :
    Steps sight ⟨some token, rest, scopes, allowed⟩ := by
  intro context htags s hs
  obtain ⟨lexeme, t, hnext, hlexeme, ht⟩ := next_of_passes hs hfaces (fun u hu => by
    obtain ⟨c, hhead, _⟩ := hfaces.starts.head
    obtain ⟨cs, hcs⟩ := List.head?_eq_some_iff.mp hhead
    have hplain := (htoken context htags u hu).plainToken (hu.rest_eq.trans hcs)
      (fun h => hzero (by rw [hhead, h])) (Nat.zero_lt_of_lt hu.room)
    have hscopes := not_keepsBlanks hfaces.no_text
    rw [← hu.scopes_eq] at hscopes
    exact hplain.tokenHere_of_plain (hu.context_eq ▸ htags) (htag context htags u hu) hscopes.1
      hscopes.2) (hafter context htags)
  exact ⟨lexeme, t, hnext, congrArg some hlexeme, ht⟩

section Steps

variable {outer : List Scope} {last : Option Token}

/-- A token with blanks in front of it. -/
theorem faces_of_gap {c : Char} {more : List Char} (hrest : sight.rest = gap ++ ((c :: more) ++ rest))
    (hgap : ∀ d ∈ gap, isBlank d = true ∧ isLineEnd d = false)
    (hc : isBlank c = false ∧ isLineEnd c = false ∧ c ≠ '#' ∧ c ≠ '/')
    (hkeeps : sight.scopes.head?.any Scope.keepsBlanks = false) :
    Faces sight gap (c :: more) rest where
  rest_eq := hrest
  isBlank_gap := hgap
  starts := ⟨⟨c, rfl, hc.1, hc.2.1⟩, fun h => absurd (Option.some.inj h) hc.2.2.2⟩
  no_mark := by
    rw [hrest]
    cases gap with
    | nil => exact fun h => absurd (Option.some.inj h) hc.2.2.1
    | cons d ds =>
        rintro hd
        have hblank := (hgap d List.mem_cons_self).1
        rw [Option.some.inj hd] at hblank
        exact absurd hblank (by decide)
  no_text := hkeeps

/-- A token that no gap stands in front of. -/
theorem faces_of_head {c : Char} {more : List Char} (hrest : sight.rest = (c :: more) ++ rest)
    (hc : isBlank c = false ∧ isLineEnd c = false ∧ c ≠ '#' ∧ c ≠ '/')
    (hkeeps : sight.scopes.head?.any Scope.keepsBlanks = false) :
    Faces sight [] (c :: more) rest :=
  faces_of_gap hrest (by simp) hc hkeeps

/-- One of the marks that are read in a tag as they are anywhere. -/
theorem steps_of_mark {c : Char} {p : Punct} (hc : c ∈ ['=', '{', '}', ';'])
    (hrest : sight.rest = c :: rest) (hkeeps : sight.scopes.head?.any Scope.keepsBlanks = false)
    (htoken : ∀ t : Lexer, t.rest = c :: rest → Passes plainTokenOnce t (some (.punct p)) [c] rest)
    (hafter : ∀ context, ReadsTags context → ∀ t : Lexer, t.Shows context { sight with rest } →
      t.scopesAfter (.punct p) = (scopes, allowed)) :
    Steps sight ⟨some (.punct p), rest, scopes, allowed⟩ := by
  have hmark : (isBlank c = false ∧ isLineEnd c = false ∧ c ≠ '#' ∧ c ≠ '/') ∧
      Text.isIdentifierStart c = false ∧ c ≠ '<' ∧ c ≠ '>' ∧ c ≠ '"' ∧ c ≠ '\'' ∧ c ≠ '\x00' := by
    simp only [List.mem_cons, List.not_mem_nil, or_false] at hc
    rcases hc with rfl | rfl | rfl | rfl <;> decide
  obtain ⟨hgap, hstart, hangle, hend, hdouble, hsingle, hzero⟩ := hmark
  have hfaces : Faces sight [] [c] rest := faces_of_head hrest hgap hkeeps
  apply steps_of_plain hfaces
  · intro context htags t ht
    exact tagToken?_of_other ht.rest_eq hstart hangle hend fun _ => ⟨hdouble, hsingle⟩
  · intro context htags t ht
    exact htoken t ht.rest_eq
  · exact fun h => hzero (Option.some.inj h)
  · exact hafter

theorem steps_tagStart {c : Char} {cs : List Char} (hc : c ≠ '!' ∧ c ≠ '<') :
    Steps ⟨last, '<' :: c :: cs, .braceStatement :: outer, true⟩
      ⟨some .tagStart, c :: cs, .openingTag :: .markup :: .braceStatement :: outer, false⟩ := by
  have hfaces : Faces ⟨last, '<' :: c :: cs, .braceStatement :: outer, true⟩ [] ['<'] (c :: cs) :=
    faces_of_head rfl (by decide) rfl
  apply steps_of_tag hfaces
  · intro context htags t ht
    exact passes_tagStart ht.rest_eq hc ht.allowed_eq (by rw [ht.scopes_eq]; rfl)
  · intro context htags t ht
    rw [ht.eq_with]
    rfl

/-- A name in a tag, behind blanks or not. -/
theorem steps_tagName (gap : List Char) {name : List Char} (hname : IsTagName name)
    (hgap : ∀ c ∈ gap, isBlank c = true ∧ isLineEnd c = false)
    (hrest : rest.head?.any (fun c => Text.isIdentifierPart c || c == '-') = false) :
    Steps ⟨last, gap ++ (name ++ rest), .openingTag :: outer, allowed⟩
      ⟨some (.jsxName (String.ofList name)), rest, .openingTag :: outer, false⟩ := by
  have hfaces : Faces ⟨last, gap ++ (name ++ rest), .openingTag :: outer, allowed⟩ gap name rest := by
    obtain ⟨c, cs, rfl, hstart⟩ := hname.exists_cons
    have hspace := Bool.or_eq_false_iff.mp (isSpace_of_isIdentifierStart hstart)
    refine faces_of_gap rfl hgap ⟨hspace.1, hspace.2, ?_, ?_⟩ rfl <;>
    · rintro rfl
      exact absurd hstart (by decide)
  apply steps_of_tag hfaces
  · intro context htags t ht
    exact passes_tagName (by rw [ht.scopes_eq]; rfl) hname ht.rest_eq hrest
  · intro context htags t ht
    rw [ht.eq_with]
    rfl

theorem steps_assign (hrest : rest.head? ≠ some '=' ∧ rest.head? ≠ some '>') :
    Steps ⟨last, '=' :: rest, .openingTag :: outer, allowed⟩
      ⟨some (.punct .assign), rest, .openingTag :: outer, true⟩ := by
  apply steps_of_mark (by decide) rfl rfl
  · exact fun t ht => passes_assign ht hrest.1 hrest.2
  · intro context htags t ht
    rw [ht.eq_with]
    rfl

/-- A string as the value of an attribute. -/
theorem steps_tagString {quote : Char} {body : List Char} (hquote : quote = '"' ∨ quote = '\'')
    (hbody : ∀ c ∈ body, c ≠ quote ∧ c ≠ '&' ∧ c ≠ '\r') (hrest : 2 ≤ rest.length) :
    Steps ⟨last, quote :: body ++ [quote] ++ rest, .openingTag :: outer, allowed⟩
      ⟨some (.str (String.ofList body) (String.ofList (quote :: body ++ [quote]))), rest,
        .openingTag :: outer, false⟩ := by
  have hfaces : Faces ⟨last, quote :: body ++ [quote] ++ rest, .openingTag :: outer, allowed⟩ []
      (quote :: body ++ [quote]) rest :=
    faces_of_head rfl (by rcases hquote with rfl | rfl <;> decide) rfl
  apply steps_of_tag hfaces
  · intro context htags t ht
    exact passes_tagString (by rw [ht.scopes_eq]; rfl) hquote hbody hrest ht.rest_eq
  · intro context htags t ht
    rw [ht.eq_with]
    rfl

/-- The brace in front of an expression that is the value of an attribute. -/
theorem steps_lbrace :
    Steps ⟨last, '{' :: rest, .openingTag :: outer, allowed⟩
      ⟨some (.punct .lbrace), rest, .braceExpression :: .openingTag :: outer, true⟩ := by
  apply steps_of_mark (by decide) rfl rfl
  · exact fun t ht => passes_single (by decide) ht
  · intro context htags t ht
    simp [Lexer.scopesAfter, ht.scopes_eq, ht.context_eq, htags.jsx]

/-- A string in an expression. -/
theorem steps_string {quote : Char} {body value : List Char} (hquote : quote = '"' ∨ quote = '\'')
    (hspells : Quoting.Spells quote rest body value) :
    Steps ⟨last, quote :: body ++ [quote] ++ rest, .braceExpression :: outer, allowed⟩
      ⟨some (.str (String.ofList value) (String.ofList (quote :: body ++ [quote]))), rest,
        .braceExpression :: outer, false⟩ := by
  have hfaces : Faces ⟨last, quote :: body ++ [quote] ++ rest, .braceExpression :: outer, allowed⟩ []
      (quote :: body ++ [quote]) rest :=
    faces_of_head rfl (by rcases hquote with rfl | rfl <;> decide) rfl
  apply steps_of_plain hfaces
  · intro context htags t ht
    apply tagToken?_of_other ht.rest_eq
    · rcases hquote with rfl | rfl <;> decide
    · rcases hquote with rfl | rfl <;> decide
    · rcases hquote with rfl | rfl <;> decide
    · rw [ht.scopes_eq]
      exact fun h => absurd (Option.some.inj h) (by decide)
  · intro context htags t ht
    have hlength : body.length < t.size := by
      have hroom := ht.room
      rw [ht.rest_eq] at hroom
      simp at hroom
      omega
    have hstring := passes_string (by rcases hquote with rfl | rfl <;> decide) hspells hlength ht.rest_eq
    rw [plainTokenOnce]
    apply passes_get_bind
    rw [ht.rest_eq]
    rcases hquote with rfl | rfl <;> exact hstring.map some
  · rcases hquote with rfl | rfl <;> exact fun h => absurd (Option.some.inj h) (by decide)
  · intro context htags t ht
    rw [ht.eq_with]
    rfl

/-- The brace behind an expression that is the value of an attribute. -/
theorem steps_rbrace {inner : Scope} :
    Steps ⟨last, '}' :: rest, .braceExpression :: inner :: outer, allowed⟩
      ⟨some (.punct .rbrace), rest, inner :: outer, false⟩ := by
  apply steps_of_mark (by decide) rfl rfl
  · exact fun t ht => passes_single (by decide) ht
  · intro context htags t ht
    rw [ht.eq_with]
    rfl

/-- The slash of an element that has no closing tag. -/
theorem steps_slash (hlast : last ≠ some .tagStart) :
    Steps ⟨last, '/' :: '>' :: rest, .openingTag :: outer, allowed⟩
      ⟨some (.punct .slash), '>' :: rest, .openingTag :: outer, true⟩ := by
  have hfaces : Faces ⟨last, '/' :: '>' :: rest, .openingTag :: outer, allowed⟩ [] ['/'] ('>' :: rest) :=
    { rest_eq := rfl
      isBlank_gap := by simp
      starts := ⟨⟨'/', rfl, by decide, by decide⟩, by simp⟩
      no_mark := by simp
      no_text := rfl }
  apply steps_of_plain hfaces
  · intro context htags t ht
    exact tagToken?_of_other ht.rest_eq (by decide) (by decide) (by decide) (fun _ => by decide)
  · intro context htags t ht
    exact passes_slash ht.rest_eq (by simp)
  · exact fun h => absurd (Option.some.inj h) (by decide)
  · intro context htags t ht
    have hlast : t.last ≠ some .tagStart := ht.last_eq ▸ hlast
    simp only [Lexer.scopesAfter, ht.scopes_eq]

/-- The angle at the end of a tag behind its slash. -/
theorem steps_tagEnd {inner : Scope} :
    Steps ⟨some (.punct .slash), '>' :: rest, .openingTag :: inner :: outer, allowed⟩
      ⟨some .tagEnd, rest, outer, outer.head? == some .markup⟩ := by
  have hfaces : Faces ⟨some (.punct .slash), '>' :: rest, .openingTag :: inner :: outer, allowed⟩
      [] ['>'] rest :=
    faces_of_head rfl (by decide) rfl
  apply steps_of_tag hfaces
  · intro context htags t ht
    exact passes_tagEnd (by rw [ht.scopes_eq]; rfl) ht.rest_eq
  · intro context htags t ht
    simp [Lexer.scopesAfter, ht.scopes_eq, ht.last_eq, List.head?_eq_getElem?]

theorem steps_semi :
    Steps ⟨last, ';' :: rest, .braceStatement :: outer, allowed⟩
      ⟨some (.punct .semi), rest, .braceStatement :: outer, true⟩ := by
  apply steps_of_mark (by decide) rfl rfl
  · exact fun t ht => passes_single (by decide) ht
  · intro context htags t ht
    rw [ht.eq_with]
    rfl

end Steps

end Lex

end BreakpointProps.Script
