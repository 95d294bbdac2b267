import BreakpointProps.Proofs.Rewrite.Guard
import BreakpointProps.Proofs.Script.Finding
import BreakpointProps.Script.Parser.Markup

/-!
The grammar of attributes, as the reader of scripts keeps to it: it takes a name in a tag and what follows
for an attribute with a value only where nothing but filler and an equals sign come behind the name.
-/

namespace BreakpointProps

open Script

namespace Script.Parse

variable {s : Parser} {name : String}

theorem ensures_lex {α : Type} (action : Lex α) (s : Parser) :
    Ensures (lex action) s fun value t => action s.lexer = .ok value t.lexer := by
  intro value t hrun
  rw [lex] at hrun
  cases haction : action s.lexer with
  | error halt lexer =>
      rw [haction] at hrun
      cases hrun
  | ok other lexer =>
      rw [haction] at hrun
      cases hrun
      rfl

/-- Where nothing was looked at behind the current token, the next one is read when it is passed. -/
theorem ensures_bump (hahead : s.ahead = none) :
    Ensures bump s fun _ t => Lex.next s.lexer = .ok t.current t.lexer := by
  rw [bump]
  apply ensures_get_bind
  rw [hahead]
  refine ensures_bind_of_eq rfl ?_
  refine (ensures_lex Lex.next _).bind ?_
  rintro lexeme? t hnext _ u hrun
  cases hrun
  exact hnext

theorem eq_of_isPunct {p : Punct} {token : Token} (hpunct : token.isPunct p = true) : token = .punct p := by
  cases token with
  | punct q => rw [beq_iff_eq.mp hpunct]
  | _ => cases hpunct

theorem ensures_eat (p : Punct) (s : Parser) : Ensures (eat p) s fun passed t =>
    passed = true ∧ s.current.map Lexeme.token = some (.punct p) ∨ passed = false ∧ t = s := by
  rw [eat]
  refine ensures_bind_of_eq rfl ?_
  split
  · rename_i hat
    obtain ⟨token, htoken, hpunct⟩ := (Option.any_eq_true _ _).mp hat
    apply ensures_bind
    intro _ t
    exact ensures_pure (Or.inl ⟨rfl, eq_of_isPunct hpunct ▸ htoken⟩)
  · exact ensures_pure (Or.inr ⟨rfl, rfl⟩)

theorem ensures_tagName (hcurrent : s.current.map Lexeme.token = some (.jsxName name))
    (hahead : s.ahead = none) : Ensures tagName s fun node t => (∃ span, node = .leaf (.name name) span) ∧
      Lex.next s.lexer = .ok t.current t.lexer := by
  have hcurrent? : current? s = .ok (some (.jsxName name)) s := congrArg (EStateM.Result.ok · s) hcurrent
  have hneed : Ensures needCurrent s fun token t => token = .jsxName name ∧ t = s := by
    rw [needCurrent]
    refine ensures_bind_of_eq hcurrent? ?_
    exact ensures_pure ⟨rfl, rfl⟩
  rw [tagName]
  refine ensures_bind_of_eq rfl ?_
  refine hneed.bind ?_
  rintro _ u ⟨rfl, hu⟩
  rw [hu]
  refine (ensures_bump hahead).bind ?_
  intro _ t hnext
  refine ensures_bind_of_eq rfl ?_
  exact ensures_pure ⟨⟨_, rfl⟩, hnext⟩

theorem ensures_namespacedName (hcurrent : s.current.map Lexeme.token = some (.jsxName name))
    (hahead : s.ahead = none) :
    Ensures namespacedName s fun node t => (∃ span parts, node = .mk .tagNamespaced span parts) ∨
      (∃ span, node = .leaf (.name name) span) ∧ Lex.next s.lexer = .ok t.current t.lexer := by
  rw [namespacedName]
  refine ensures_bind_of_eq rfl ?_
  refine (ensures_tagName hcurrent hahead).bind ?_
  rintro first t ⟨hfirst, hnext⟩
  refine (ensures_eat .colon t).bind ?_
  rintro passed u (⟨rfl, -⟩ | ⟨rfl, rfl⟩)
  · apply ensures_bind
    intro second v
    exact ensures_pure (Or.inl ⟨_, _, rfl⟩)
  · exact ensures_pure (Or.inr ⟨hfirst, hnext⟩)

/-- If an attribute is read and has a value, nothing but filler and an equals sign stand behind its name. -/
theorem ensures_tagAttribute {g : Grammar} (hcurrent : s.current.map Lexeme.token = some (.jsxName name))
    (hahead : s.ahead = none) (hroom : s.lexer.rest.length < s.lexer.size) :
    Ensures (tagAttribute g) s fun node _ => ∀ other ∈ Rewrite.valuedName? node,
      other = name ∧ ∃ rest, FillerLeads s.lexer.rest ('=' :: rest) := by
  rw [tagAttribute]
  refine ensures_bind_of_eq rfl ?_
  refine (ensures_eat .lbrace s).bind ?_
  rintro spread u (⟨-, hbrace⟩ | ⟨rfl, hu⟩)
  · cases hcurrent.symm.trans hbrace
  rw [hu, if_neg Bool.false_ne_true]
  refine (ensures_namespacedName hcurrent hahead).bind ?_
  intro node t hnode
  have hvalued : ∀ {span : Span} {value : Node} {other : String},
      other ∈ Rewrite.valuedName? (.mk .attribute span [node, value]) →
        value.isAbsent = false ∧ other = name ∧ Lex.next s.lexer = .ok t.current t.lexer := by
    intro span value other hother
    rcases hnode with ⟨_, _, rfl⟩ | ⟨⟨_, rfl⟩, hnext⟩
    · simp [Rewrite.valuedName?] at hother
    · cases habsent : value.isAbsent <;>
        simp [Node.leaf, Rewrite.valuedName?, habsent] at hother ⊢
      exact ⟨hother.symm, hnext⟩
  refine (ensures_eat .assign t).bind ?_
  rintro passed u (⟨rfl, hassign⟩ | ⟨rfl, rfl⟩)
  · apply ensures_bind
    intro value v
    refine ensures_bind_of_eq rfl ?_
    refine ensures_pure fun other hother => ?_
    obtain ⟨-, rfl, hnext⟩ := hvalued hother
    exact ⟨rfl, _, (Lex.fillerLeads_of_next hroom hnext hassign rfl).2⟩
  · refine ensures_bind_of_eq rfl ?_
    refine ensures_bind_of_eq rfl ?_
    refine ensures_pure fun other hother => ?_
    exact absurd (hvalued hother).1 (by decide)

end Script.Parse

namespace Rewrite

/-- Behind filler a name may stand. -/
theorem exists_getLast?_text {filler : Filler} (hproper : filler.IsProper) :
    ∃ c, filler.text.getLast? = some c ∧ mayPrecede c = true := by
  have hstop : ∀ (text : List Char) (stop : LineStop),
      ∃ c, (text ++ stop.text).getLast? = some c ∧ mayPrecede c = true := by
    intro text stop
    rw [List.getLast?_append]
    cases stop with
    | feed => exact ⟨'\n', rfl, by decide⟩
    | return_ => exact ⟨'\r', rfl, by decide⟩
    | returnFeed => exact ⟨'\n', rfl, by decide⟩
    | lineSeparator => exact ⟨'\u2028', rfl, by decide⟩
    | paragraphSeparator => exact ⟨'\u2029', rfl, by decide⟩
  cases filler with
  | space c =>
      refine ⟨c, rfl, ?_⟩
      rcases hproper with hspace | rfl
      · rw [mayPrecede, hspace, Bool.true_or]
      · decide
  | blockComment text =>
      refine ⟨'/', ?_, by decide⟩
      rw [Filler.text, List.getLast?_append]
      rfl
  | lineComment text stop => exact hstop _ stop
  | foreignLine mark text stop => exact hstop _ stop

theorem mayPrecede_of_getLast?_append {passed : List Char} {gap : List Filler}
    (hpassed : ∀ c ∈ passed.getLast?, mayPrecede c = true) (hgap : ∀ filler ∈ gap, filler.IsProper) :
    ∀ c ∈ (passed ++ gap.flatMap Filler.text).getLast?, mayPrecede c = true := by
  induction gap generalizing passed with
  | nil => simpa using hpassed
  | cons filler more ih =>
      rw [List.flatMap_cons, ← List.append_assoc]
      apply ih
      · obtain ⟨d, hlast, hd⟩ := exists_getLast?_text (hgap filler List.mem_cons_self)
        rw [List.getLast?_append, hlast]
        rintro c hc
        obtain rfl := Option.some.inj hc
        exact hd
      · exact fun other hother => hgap other (List.mem_cons_of_mem _ hother)

/-- Where the reader of scripts comes to a name in a tag and takes it, with what follows, for an attribute
that has a value, the attribute stands in the source as the grammar has it. -/
theorem exists_place_of_tagAttribute {g : Grammar} {before : Lexer} {s t : Parser} {node : Node}
    {name other : String} (hroom : before.rest.length < before.size)
    (hnext : Lex.next before = .ok s.current s.lexer)
    (hcurrent : s.current.map Lexeme.token = some (.jsxName name)) (hahead : s.ahead = none)
    (hread : Parse.tagAttribute g s = .ok node t) (hvalued : valuedName? node = some other)
    {passed : List Char} (hpassed : ∀ c ∈ passed.getLast?, mayPrecede c = true) :
    ∃ place : Place, place.name = other ∧ place.IsWritten ∧ place.text = passed ++ before.rest := by
  obtain ⟨hsize, gap, hgap, hbefore⟩ := Lex.fillerLeads_of_next hroom hnext hcurrent rfl
  have hroom' : s.lexer.rest.length < s.lexer.size := by
    rw [hsize]
    apply Nat.lt_of_le_of_lt _ hroom
    rw [hbefore, List.length_append, List.length_append]
    omega
  obtain ⟨rfl, rest, between, hbetween, hrest⟩ :=
    Parse.ensures_tagAttribute hcurrent hahead hroom' _ _ hread _ hvalued
  refine ⟨⟨passed ++ gap.flatMap Filler.text, other, other.toList, between, rest⟩, rfl,
    ⟨mayPrecede_of_getLast?_append hpassed hgap, Or.inl rfl, hbetween⟩, ?_⟩
  rw [hbefore, hrest, Place.text]
  simp

end Rewrite

end BreakpointProps
