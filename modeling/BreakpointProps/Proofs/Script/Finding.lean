import BreakpointProps.Proofs.Script.Filler
import BreakpointProps.Proofs.Script.Lexing

/-!
Where the lexer comes to the tokens that make up an attribute: to a name in a tag or to an equals sign it
comes behind nothing but filler.
-/

namespace BreakpointProps.Script

/-- How the token is written if it is a name in a tag or an equals sign. -/
def Token.written? : Token → Option (List Char)
  | .jsxName name => some name.toList
  | .punct .assign => some ['=']
  | _ => none

namespace Lexer

/-- Nothing but filler was passed, if anything is left. -/
structure Skips (s t : Lexer) : Prop where
  size : t.size = s.size
  leads : t.rest = [] ∨ FillerLeads s.rest t.rest

/-- If the token is a name in a tag or an equals sign, nothing but filler stood in front of it. -/
def Finds (s : Lexer) (token : Token) (t : Lexer) : Prop :=
  ∀ written ∈ token.written?, written ≠ [] ∧ t.size = s.size ∧ FillerLeads s.rest (written ++ t.rest)

/-- A token was found, or none and only filler was passed. -/
def Comes (s : Lexer) : Option Token → Lexer → Prop
  | some token, t => s.Finds token t
  | none, t => s.Skips t

/-- If there is a token, it was found. -/
def FindsIn (s : Lexer) (token? : Option Token) (t : Lexer) : Prop := ∀ token ∈ token?, s.Finds token t

theorem findsIn_some {s t : Lexer} {token : Token} (hfinds : s.Finds token t) : s.FindsIn (some token) t := by
  intro other hsome
  obtain rfl := Option.some.inj hsome
  exact hfinds

theorem findsIn_none (s t : Lexer) : s.FindsIn none t := by
  intro token hnone
  cases hnone

theorem finds_of_other {s t : Lexer} {token : Token} (hother : token.written? = none) : s.Finds token t := by
  intro written hwritten
  rw [hother] at hwritten
  cases hwritten

theorem Skips.room {s t : Lexer} (hskips : s.Skips t) (hroom : s.rest.length < s.size) :
    t.rest.length < t.size := by
  rw [hskips.size]
  rcases hskips.leads with hnil | hleads
  · rw [hnil]
    exact Nat.zero_lt_of_lt hroom
  · exact Nat.lt_of_le_of_lt hleads.length_le hroom

/-- What is found behind filler is found. -/
theorem Skips.finds {s t u : Lexer} {token : Token} (hskips : s.Skips t) (hfinds : t.Finds token u) :
    s.Finds token u := by
  intro written hwritten
  obtain ⟨hne, hsize, hleads⟩ := hfinds written hwritten
  refine ⟨hne, hsize.trans hskips.size, ?_⟩
  rcases hskips.leads with hnil | hfirst
  · rw [hnil] at hleads
    exact absurd hleads.eq_nil (by simp [hne])
  · exact FillerLeads.trans hfirst hleads

end Lexer

section Ensures

variable {ε σ α β : Type} {s : σ} {post : α → σ → Prop} {post' : β → σ → Prop}

/-- If the action does not fail, this holds of what it comes to. -/
def Ensures (action : EStateM ε σ α) (s : σ) (post : α → σ → Prop) : Prop :=
  ∀ value t, action s = .ok value t → post value t

theorem Ensures.bind {first : EStateM ε σ α} {next : α → EStateM ε σ β} (hfirst : Ensures first s post)
    (hnext : ∀ value t, post value t → Ensures (next value) t post') :
    Ensures (first >>= next) s post' := by
  intro result u hrun
  change EStateM.bind first next s = _ at hrun
  rw [EStateM.bind] at hrun
  cases hrest : first s with
  | error halt t =>
      rw [hrest] at hrun
      cases hrun
  | ok value t =>
      rw [hrest] at hrun
      exact hnext value t (hfirst value t hrest) result u hrun

/-- Whatever comes before, the last action ensures it. -/
theorem ensures_bind {first : EStateM ε σ α} {next : α → EStateM ε σ β}
    (hnext : ∀ value t, Ensures (next value) t post') : Ensures (first >>= next) s post' :=
  Ensures.bind (fun _ _ _ => trivial) fun value t (_ : True) => hnext value t

theorem ensures_bind_pair {γ : Type} {first : EStateM ε σ (α × γ)} {next : α × γ → EStateM ε σ β}
    (hnext : ∀ value other t, Ensures (next (value, other)) t post') : Ensures (first >>= next) s post' :=
  ensures_bind fun both => hnext both.1 both.2

/-- If it is known what the first action comes to, the next one starts there. -/
theorem ensures_bind_of_eq {first : EStateM ε σ α} {next : α → EStateM ε σ β} {value : α} {t : σ}
    (hfirst : first s = .ok value t) (hnext : Ensures (next value) t post') :
    Ensures (first >>= next) s post' := by
  have hsame : Ensures first s fun other u => other = value ∧ u = t := by
    intro other u hrun
    cases hfirst.symm.trans hrun
    exact ⟨rfl, rfl⟩
  refine hsame.bind ?_
  rintro _ _ ⟨rfl, rfl⟩
  exact hnext

theorem ensures_get_bind {next : σ → EStateM ε σ β} (hnext : Ensures (next s) s post') :
    Ensures (get >>= next) s post' := hnext

theorem ensures_modify_bind {change : σ → σ} {next : Unit → EStateM ε σ β}
    (hnext : Ensures (next ()) (change s) post') : Ensures (modify change >>= next) s post' := hnext

theorem ensures_pure {value : α} (hpost : post value s) :
    Ensures (pure value : EStateM ε σ α) s post := by
  rintro _ _ ⟨⟩
  exact hpost

theorem ensures_map {action : EStateM ε σ α} {f : α → β}
    (haction : Ensures action s fun value t => post' (f value) t) : Ensures (f <$> action) s post' := by
  intro result u hrun
  change EStateM.map f action s = _ at hrun
  rw [EStateM.map] at hrun
  cases hrest : action s with
  | error halt t =>
      rw [hrest] at hrun
      cases hrun
  | ok value t =>
      rw [hrest] at hrun
      cases hrun
      exact haction value u hrest

end Ensures

namespace Lex

section Steps

variable {α β : Type} {s : Lexer} {post : β → Lexer → Prop}

theorem ensures_peek_bind {next : Option Char → Lex β} (hnext : Ensures (next s.rest.head?) s post) :
    Ensures (peek >>= next) s post := hnext

theorem ensures_startsWith_bind {text : String} {next : Bool → Lex β}
    (hnext : Ensures (next (text.toList.isPrefixOf s.rest)) s post) :
    Ensures (startsWith text >>= next) s post := hnext

theorem Leaves.ensures {action : Lex α} {left : List Char → Prop} (haction : Leaves action s left) :
    Ensures action s fun _ t => t.size = s.size ∧ left t.rest := by
  obtain ⟨value, t, hrun, hsize, hleft⟩ := haction
  intro _ _ hother
  cases hrun.symm.trans hother
  exact ⟨hsize, hleft⟩

theorem ensures_skip_bind {next : Unit → Lex β} {c : Char} {rest : List Char} (hrest : s.rest = c :: rest)
    (hnext : Ensures (next ()) (s.past [c] rest) post) : Ensures (skip >>= next) s post :=
  ensures_bind_of_eq (passes_skip hrest).run_eq hnext

/-- A character is passed if it is the next one. -/
theorem ensures_eat (c : Char) (s : Lexer) : Ensures (eat c) s fun passed t => t.size = s.size ∧
    (passed = true ∧ s.rest = c :: t.rest ∨ passed = false ∧ t.rest = s.rest) := by
  rw [eat]
  apply ensures_peek_bind
  split
  · rename_i hhead
    obtain ⟨rest, hrest⟩ := List.head?_eq_some_iff.mp (beq_iff_eq.mp hhead)
    refine ensures_skip_bind hrest ?_
    exact ensures_pure ⟨rfl, Or.inl ⟨rfl, hrest⟩⟩
  · exact ensures_pure ⟨rfl, Or.inr ⟨rfl, rfl⟩⟩

theorem ensures_failAt {position : Nat} {fault : Fault} : Ensures (failAt position fault) s post := by
  rintro _ _ ⟨⟩

end Steps

section Others

variable {s : Lexer}

/-- The action comes to a token that is neither a name in a tag nor an equals sign. -/
def FindsOther (action : Lex Token) : Prop := ∀ s, Ensures action s fun token _ => token.written? = none

theorem written?_of_ne {p : Punct} (hp : p ≠ .assign) : (Token.punct p).written? = none := by
  cases p <;> first | rfl | exact absurd rfl hp

theorem findsOther_string : FindsOther string := fun _ =>
  ensures_bind_pair fun _ _ _ => ensures_pure rfl

theorem findsOther_jsxString : FindsOther jsxString := fun _ =>
  ensures_bind_pair fun _ _ _ => ensures_pure rfl

theorem findsOther_markupText : FindsOther markupText := fun _ =>
  ensures_bind_pair fun _ _ _ => ensures_pure rfl

theorem findsOther_number : FindsOther number := by
  intro s
  refine ensures_bind_pair fun big _ _ => ensures_pure ?_
  cases big <;> rfl

theorem findsOther_shebang : FindsOther shebang := fun _ =>
  ensures_bind fun _ _ => ensures_bind_pair fun _ _ _ => ensures_pure rfl

theorem findsOther_regexp (start : Nat) : FindsOther (regexp start) := by
  intro s
  rw [regexp]
  refine ensures_bind_pair fun _ _ _ => ?_
  apply ensures_bind
  intro closed t
  dsimp only
  split
  · exact ensures_bind fun _ _ => ensures_bind_pair fun _ _ _ => ensures_pure rfl
  · exact ensures_bind_pair fun _ _ _ => ensures_pure rfl

theorem findsOther_word : FindsOther word := by
  intro s
  rw [word]
  apply ensures_get_bind
  apply ensures_get_bind
  refine ensures_bind_pair fun name escaped t => ?_
  dsimp only
  split
  · exact ensures_bind fun _ _ => ensures_pure rfl
  · exact ensures_pure rfl

theorem findsOther_templatePart : FindsOther templatePart := by
  intro s
  have hmark : ∀ (pass : Lex Unit) (p : Punct), p ≠ .assign →
      Ensures (do pass; return Token.punct p) s fun token _ => token.written? = none := by
    intro pass p hp
    apply ensures_bind
    intro _ t
    exact ensures_pure (written?_of_ne hp)
  rw [templatePart]
  apply ensures_get_bind
  dsimp only
  split
  · split
    · exact hmark _ _ (by decide)
    · exact ensures_bind_pair fun _ _ _ => ensures_pure rfl
  · split
    · exact hmark _ _ (by decide)
    · exact ensures_bind_pair fun _ _ _ => ensures_pure rfl
  · exact ensures_bind_pair fun _ _ _ => ensures_pure rfl

theorem findsOther_withAssign {plain assigned : Punct} (hplain : plain ≠ .assign)
    (hassigned : assigned ≠ .assign) : FindsOther (withAssign plain assigned) := by
  intro s
  apply ensures_bind
  intro passed t
  cases passed with
  | true => exact ensures_pure (written?_of_ne hassigned)
  | false => exact ensures_pure (written?_of_ne hplain)

theorem FindsOther.comes {action : Lex Token} (hother : FindsOther action) (t : Lexer) :
    Ensures (some <$> action) t s.Comes :=
  ensures_map fun value u hrun => Lexer.finds_of_other (hother t value u hrun)

end Others

section Foreign

variable {s t : Lexer}

theorem leaves_note (fault : Fault) (s : Lexer) : Leaves (note fault) s (· = s.rest) := by
  apply leaves_modify <;> split <;> rfl

/-- The lexer stands in the middle of what starts with a foreign mark, and passes over the rest of the mark by
taking some characters of the line. -/
structure InForeign (s t : Lexer) (passed start : List Char) (taken : Nat) : Prop where
  mark : passed ++ start ∈ Filler.foreignMarks
  passed_eq : s.rest = passed ++ t.rest
  starts : start.isPrefixOf t.rest = true
  taken_eq : ∀ text : List Char, ((start ++ text).drop taken).dropWhile (fun c => !isLineEnd c) =
    text.dropWhile fun c => !isLineEnd c
  size_eq : t.size = s.size
  room : s.rest.length < s.size

/-- The line is filler. -/
theorem InForeign.leaves {passed start : List Char} {taken : Nat} (hin : InForeign s t passed start taken) :
    Leaves (do lineComment taken; skipSpace) t fun rest => rest = [] ∨ FillerLeads s.rest rest := by
  obtain ⟨hmark, hpassed, hstart, htaken, hsize, hroom⟩ := hin
  obtain ⟨text, htext⟩ := List.isPrefixOf_iff_prefix.mp hstart
  have hroom' : t.rest.length < t.size := by
    rw [hpassed, List.length_append] at hroom
    omega
  apply (leaves_line hroom' taken).mono
  rintro rest (hnil | hleads)
  · exact Or.inl hnil
  · rw [← htext, htaken] at hleads
    rw [hpassed, ← htext, ← List.append_assoc]
    exact hleads.foreignLine hmark

theorem InForeign.ensures {passed start : List Char} {taken : Nat} (hin : InForeign s t passed start taken)
    (fault : Fault) : Ensures (do foreignLine taken fault; return none) t s.Comes := by
  have hleaves : Leaves (foreignLine taken fault) t fun rest => rest = [] ∨ FillerLeads s.rest rest := by
    apply (leaves_note fault t).bind
    intro _ u hu hkept
    exact InForeign.leaves ⟨hin.mark, hkept ▸ hin.passed_eq, hkept ▸ hin.starts, hin.taken_eq,
      hu.trans hin.size_eq, hin.room⟩
  refine hleaves.ensures.bind ?_
  rintro _ u ⟨hu, hleft⟩
  exact ensures_pure ⟨hu.trans hin.size_eq, hleft⟩

theorem comes_of_ne {p : Punct} (hp : p ≠ .assign) : s.Comes (some (.punct p)) t :=
  Lexer.finds_of_other (written?_of_ne hp)

theorem ensures_angle {c : Char} {rest : List Char} (hc : c = '<' ∨ c = '>') (hrest : s.rest = c :: rest)
    (hroom : s.rest.length < s.size) : Ensures (angle c) s s.Comes := by
  rw [angle]
  apply ensures_get_bind
  refine ensures_skip_bind hrest ?_
  split
  · exact ensures_pure (comes_of_ne (by split <;> decide))
  apply ensures_startsWith_bind
  split
  · rename_i hlegacy
    rw [Bool.and_eq_true, beq_iff_eq] at hlegacy
    obtain ⟨rfl, hstart⟩ := hlegacy
    have hin : InForeign s (s.past ['<'] rest) ['<'] "!--".toList 3 :=
      ⟨by decide, hrest, hstart, fun _ => rfl, rfl, hroom⟩
    rw [← bind_assoc]
    refine hin.leaves.ensures.bind ?_
    rintro _ t ⟨ht, hleft⟩
    refine (leaves_note .legacyComment t).ensures.bind ?_
    rintro _ u ⟨hu, hkept⟩
    exact ensures_pure ⟨hu.trans ht, hkept ▸ hleft⟩
  extract_lets single ending double triple
  -- How many angles were passed decides which mark may have begun.
  have hending : ∀ (op : Punct) (t : Lexer), op ≠ .assign → t.size = s.size →
      (op = .shiftLeft → s.rest = '<' :: '<' :: t.rest) →
      (op = .shiftRightZero → s.rest = '>' :: '>' :: '>' :: t.rest) → Ensures (ending () op) t s.Comes := by
    intro op t hop ht hleft hright
    refine (ensures_eat '=' t).bind ?_
    rintro assigned u ⟨hu, ⟨rfl, -⟩ | ⟨rfl, hkept⟩⟩
    · exact ensures_pure (comes_of_ne (by split <;> decide))
    rw [← hkept] at hleft hright
    rw [if_neg Bool.false_ne_true]
    apply ensures_startsWith_bind
    split
    · rename_i hmark
      rw [Bool.and_eq_true, Bool.and_eq_true, beq_iff_eq] at hmark
      have hin : InForeign s u ['<', '<'] "<<<<< ".toList 5 :=
        ⟨by decide, hleft hmark.1.2, hmark.2, fun _ => rfl, hu.trans ht, hroom⟩
      exact hin.ensures .conflictMarker
    apply ensures_startsWith_bind
    split
    · rename_i hmark
      rw [Bool.and_eq_true, Bool.and_eq_true, beq_iff_eq] at hmark
      have hin : InForeign s u ['>', '>', '>'] ">>>> ".toList 5 :=
        ⟨by decide, hright hmark.1.2, hmark.2, fun _ => rfl, hu.trans ht, hroom⟩
      exact hin.ensures .conflictMarker
    · exact ensures_pure (comes_of_ne hop)
  refine (ensures_eat c _).bind ?_
  rintro passed t ⟨hsize, ⟨rfl, htwo⟩ | ⟨rfl, hone⟩⟩
  · have hpassed : s.rest = c :: c :: t.rest := by
      rw [hrest]
      exact congrArg _ htwo
    rcases hc with rfl | rfl
    · exact hending .shiftLeft t (by decide) hsize (fun _ => hpassed) nofun
    · refine (ensures_eat '>' t).bind ?_
      rintro passed u ⟨hu, ⟨rfl, hthree⟩ | ⟨rfl, htwo⟩⟩
      · exact hending .shiftRightZero u (by decide) (hu.trans hsize) nofun fun _ => by rw [hpassed, hthree]
      · exact hending .shiftRight u (by decide) (hu.trans hsize) nofun nofun
  · rcases hc with rfl | rfl
    · exact hending .lt t (by decide) hsize nofun nofun
    · exact hending .gt t (by decide) hsize nofun nofun

theorem ensures_equalsOrBang {c : Char} {rest : List Char} (hc : c = '=' ∨ c = '!')
    (hrest : s.rest = c :: rest) (hroom : s.rest.length < s.size) : Ensures (equalsOrBang c) s s.Comes := by
  rw [equalsOrBang]
  apply ensures_get_bind
  refine ensures_skip_bind hrest ?_
  refine (ensures_eat '=' _).bind ?_
  rintro second t ⟨ht, ⟨rfl, htwo⟩ | ⟨rfl, hone⟩⟩
  · refine (ensures_eat '=' t).bind ?_
    rintro third u ⟨hu, ⟨rfl, hthree⟩ | ⟨rfl, -⟩⟩
    · rw [if_pos rfl]
      split
      · exact ensures_pure (comes_of_ne (by decide))
      · rename_i hbang
        obtain rfl : c = '=' := hc.resolve_right fun h => hbang (by rw [h]; rfl)
        apply ensures_startsWith_bind
        split
        · rename_i hmark
          rw [Bool.and_eq_true] at hmark
          have hpassed : s.rest = ['=', '=', '='] ++ u.rest := by
            rw [hrest, ← show (s.past ['='] rest).rest = rest from rfl, htwo, hthree]
            rfl
          have hin : InForeign s u ['=', '=', '='] "====".toList 4 :=
            ⟨by decide, hpassed, hmark.2, fun _ => rfl, hu.trans ht, hroom⟩
          exact hin.ensures .conflictMarker
        · exact ensures_pure (comes_of_ne (by decide))
    · exact ensures_pure (comes_of_ne (by split <;> decide))
  · rw [if_neg Bool.false_ne_true]
    split
    · rename_i hequals
      obtain rfl : c = '=' := beq_iff_eq.mp hequals
      refine (ensures_eat '>' t).bind ?_
      rintro arrow u ⟨hu, ⟨rfl, -⟩ | ⟨rfl, htwo⟩⟩
      · exact ensures_pure (comes_of_ne (by decide))
      · refine ensures_pure fun written hwritten => ?_
        obtain rfl := Option.some.inj hwritten
        have hleft : s.rest = ['='] ++ u.rest := by
          rw [htwo, hone]
          exact hrest
        exact ⟨by simp, hu.trans ht, hleft ▸ .refl _⟩
    · exact ensures_pure (comes_of_ne (by decide))

theorem ensures_sign {c : Char} {rest : List Char} (hc : c = '+' ∨ c = '-') (hrest : s.rest = c :: rest)
    (hroom : s.rest.length < s.size) : Ensures (sign c) s s.Comes := by
  rw [sign]
  apply ensures_get_bind
  refine ensures_skip_bind hrest ?_
  refine (ensures_eat c _).bind ?_
  rintro second t ⟨ht, ⟨rfl, htwo⟩ | ⟨rfl, hone⟩⟩
  · dsimp only
    rw [if_pos rfl]
    split
    · rename_i hdashes
      rw [Bool.and_eq_true, beq_iff_eq] at hdashes
      obtain ⟨-, rfl⟩ := hdashes
      refine (ensures_eat '>' t).bind ?_
      rintro third u ⟨hu, ⟨rfl, hthree⟩ | ⟨rfl, -⟩⟩
      · have hpassed : s.rest = ['-', '-', '>'] ++ u.rest := by
          rw [hrest, ← show (s.past ['-'] rest).rest = rest from rfl, htwo, hthree]
          rfl
        have hin : InForeign s u ['-', '-', '>'] [] 0 :=
          ⟨by decide, hpassed, rfl, fun _ => rfl, hu.trans ht, hroom⟩
        exact hin.ensures .legacyComment
      · exact ensures_pure (comes_of_ne (by decide))
    · exact ensures_pure (comes_of_ne (by split <;> decide))
  · dsimp only
    rw [if_neg Bool.false_ne_true]
    split
    · exact (findsOther_withAssign (by decide) (by decide)).comes t
    · exact (findsOther_withAssign (by decide) (by decide)).comes t

/-- A token of the common kind, or a line that is foreign to the language. -/
theorem ensures_plainTokenOnce (hroom : s.rest.length < s.size) : Ensures plainTokenOnce s s.Comes := by
  have hsingle : ∀ (pass : Lex Unit) (p : Punct), p ≠ .assign →
      Ensures (do pass; return some (.punct p)) s s.Comes := by
    intro pass p hp
    apply ensures_bind
    intro _ t
    exact ensures_pure (comes_of_ne hp)
  have hassign : ∀ {plain assigned : Punct}, plain ≠ .assign → assigned ≠ .assign →
      ∀ t, Ensures (some <$> withAssign plain assigned) t s.Comes :=
    fun hplain hassigned t => (findsOther_withAssign hplain hassigned).comes t
  have hdoubled : ∀ (c : Char) {plain assigned double doubleAssigned : Punct}, plain ≠ .assign →
      assigned ≠ .assign → double ≠ .assign → doubleAssigned ≠ .assign →
      Ensures (do
        skip
        if ← eat c then some <$> withAssign double doubleAssigned else some <$> withAssign plain assigned)
        s s.Comes := by
    intro c plain assigned double doubleAssigned hplain hassigned hdouble hdoubleAssigned
    apply ensures_bind
    intro _ t
    apply ensures_bind
    intro doubled u
    cases doubled with
    | true => exact hassign hdouble hdoubleAssigned u
    | false => exact hassign hplain hassigned u
  rw [plainTokenOnce]
  apply ensures_get_bind
  cases hrest : s.rest with
  | nil => exact ensures_pure ⟨rfl, Or.inl hrest⟩
  | cons c rest =>
      dsimp only
      -- First the marks that stand for themselves, then each of the other characters a token may start with.
      split
      any_goals exact hsingle skip _ (by decide)
      · exact findsOther_string.comes s
      · exact findsOther_string.comes s
      · exact ensures_angle (Or.inl rfl) hrest hroom
      · exact ensures_angle (Or.inr rfl) hrest hroom
      · exact ensures_equalsOrBang (Or.inl rfl) hrest hroom
      · exact ensures_equalsOrBang (Or.inr rfl) hrest hroom
      · exact ensures_sign (Or.inl rfl) hrest hroom
      · exact ensures_sign (Or.inr rfl) hrest hroom
      · split
        · split
          · exact findsOther_number.comes s
          · split
            · exact hsingle _ _ (by decide)
            · exact hsingle _ _ (by decide)
        · exact hsingle _ _ (by decide)
      · exact hdoubled _ (by decide) (by decide) (by decide) (by decide)
      · exact ensures_bind fun _ t => hassign (by decide) (by decide) t
      · exact ensures_bind fun _ t => hassign (by decide) (by decide) t
      · exact ensures_bind fun _ t => hassign (by decide) (by decide) t
      · exact hdoubled _ (by decide) (by decide) (by decide) (by decide)
      · exact hdoubled _ (by decide) (by decide) (by decide) (by decide)
      · apply ensures_bind
        intro _ t
        apply ensures_bind
        intro doubled u
        cases doubled with
        | true => exact hassign (by decide) (by decide) u
        | false => exact ensures_pure (comes_of_ne (by decide))
      · split
        · exact findsOther_number.comes s
        · split
          · exact findsOther_word.comes s
          · apply ensures_get_bind
            exact ensures_bind fun _ t => ensures_failAt

end Foreign

section Tokens

variable {s : Lexer}

/-- A token of the common kind is found behind filler. -/
theorem ensures_plainToken {n : Nat} (hroom : s.rest.length < s.size) : Ensures (plainToken n) s s.FindsIn := by
  induction n generalizing s with
  | zero => exact ensures_pure (Lexer.findsIn_none s s)
  | succ n ih =>
      rw [plainToken]
      apply ensures_peek_bind
      split
      · exact ensures_pure (Lexer.findsIn_none s s)
      · exact ensures_bind fun _ t => ensures_pure (Lexer.findsIn_none s t)
      · refine (ensures_plainTokenOnce hroom).bind ?_
        intro token? t hcomes
        cases token? with
        | some token => exact ensures_pure (Lexer.findsIn_some hcomes)
        | none =>
            intro token? u hrun other hother
            exact Lexer.Skips.finds hcomes (ih (Lexer.Skips.room hcomes hroom) token? u hrun other hother)

theorem isIdentifierPart_of_isIdentifierStart {c : Char} (hstart : Text.isIdentifierStart c = true) :
    Text.isIdentifierPart c = true := by
  unfold Text.isIdentifierStart at hstart
  unfold Text.isIdentifierPart
  split at hstart
  · rw [if_pos ‹_›]
    simp only [Bool.or_eq_true, Char.isAlphanum] at hstart ⊢
    rcases hstart with (hstart | hstart) | hstart <;> simp [hstart]
  · rw [if_neg ‹_›, hstart]
    rfl

theorem isTagName_takeWhile {c : Char} {rest : List Char} (hstart : Text.isIdentifierStart c = true) :
    IsTagName ((c :: rest).takeWhile fun d => Text.isIdentifierPart d || d == '-') where
  starts := by
    rw [List.takeWhile_cons_of_pos (by simp [isIdentifierPart_of_isIdentifierStart hstart])]
    exact hstart
  continues d hd := by simpa using List.all_eq_true.mp List.all_takeWhile d hd

/-- A name in a tag is found where it starts. -/
theorem ensures_jsxWord {c : Char} {rest : List Char} (hrest : s.rest = c :: rest)
    (hstart : Text.isIdentifierStart c = true) : Ensures jsxWord s s.Finds := by
  let isPart (d : Char) : Bool := Text.isIdentifierPart d || d == '-'
  have hname : IsTagName ((c :: rest).takeWhile isPart) := isTagName_takeWhile hstart
  have hsplit : s.rest = (c :: rest).takeWhile isPart ++ (c :: rest).dropWhile isPart := by
    rw [List.takeWhile_append_dropWhile]
    exact hrest
  have hnext : ((c :: rest).dropWhile isPart).head?.any isPart = false := by
    have hhead := List.head?_dropWhile_not isPart (c :: rest)
    cases hleft : ((c :: rest).dropWhile isPart).head? with
    | none => rfl
    | some d =>
        rw [hleft] at hhead
        exact hhead
  intro token t hrun written hwritten
  cases (passes_jsxWord hname hsplit hnext).run_eq.symm.trans hrun
  obtain rfl := Option.some.inj hwritten
  obtain ⟨d, more, hcons, -⟩ := hname.exists_cons
  rw [String.toList_ofList]
  exact ⟨by rw [hcons]; exact List.cons_ne_nil _ _, rfl, hsplit ▸ .refl _⟩

theorem ensures_tagToken? (hroom : s.rest.length < s.size) : Ensures tagToken? s s.Comes := by
  have hnone : Ensures (pure none : Lex (Option Token)) s s.Comes := ensures_pure ⟨rfl, Or.inr (.refl _)⟩
  have hother : ∀ {t : Lexer} {token : Token}, token.written? = none → s.Comes (some token) t :=
    fun htoken => Lexer.finds_of_other htoken
  rw [tagToken?]
  apply ensures_get_bind
  cases hrest : s.rest with
  | nil => exact hnone
  | cons c rest =>
      dsimp only
      have hangle : Ensures (if (c == '<' && s.expressionAllowed && rest.head? != some '!') = true then do
            skip
            if s.lineBreak && (← startsWith "<<<<<< ") then
              foreignLine 6 .conflictMarker
              return none
            return some .tagStart
          else return none : Lex (Option Token)) s s.Comes := by
        split
        · rename_i hopens
          simp only [Bool.and_eq_true, beq_iff_eq] at hopens
          obtain ⟨⟨rfl, -⟩, -⟩ := hopens
          refine ensures_skip_bind hrest ?_
          apply ensures_startsWith_bind
          split
          · rename_i hmark
            rw [Bool.and_eq_true] at hmark
            have hin : InForeign s (s.past ['<'] rest) ['<'] "<<<<<< ".toList 6 :=
              ⟨by decide, hrest, hmark.2, fun _ => rfl, rfl, hroom⟩
            exact hin.ensures .conflictMarker
          · exact ensures_pure (hother rfl)
        · exact hnone
      split
      · split
        · rename_i hstart
          refine (ensures_jsxWord hrest hstart).bind ?_
          intro token t hfinds
          exact ensures_pure hfinds
        · split
          · exact ensures_bind fun _ t => ensures_pure (hother rfl)
          · split
            · refine (findsOther_jsxString s).bind ?_
              intro token t htoken
              exact ensures_pure (hother htoken)
            · exact hangle
      · exact hangle

theorem ensures_markupToken (hroom : s.rest.length < s.size) : Ensures markupToken s s.FindsIn := by
  rw [markupToken]
  apply ensures_get_bind
  split
  · split
    · exact ensures_bind fun _ t => ensures_pure (Lexer.findsIn_some (Lexer.finds_of_other rfl))
    · exact ensures_plainToken hroom
  · exact ensures_plainToken hroom
  · refine (findsOther_markupText s).bind ?_
    intro token t hother
    exact ensures_pure (Lexer.findsIn_some (Lexer.finds_of_other hother))

theorem ensures_tokenHere (hroom : s.rest.length < s.size) : Ensures tokenHere s s.FindsIn := by
  -- Where no token of a tag starts, at most a foreign line was passed.
  have hlast : ∀ t, s.Skips t → Ensures (do
      if s.scopes.head? == some .template then return some (← templatePart)
      plainToken s.size) t s.FindsIn := by
    intro t hskips
    split
    · refine (findsOther_templatePart t).bind ?_
      intro token u hother
      exact ensures_pure (Lexer.findsIn_some (Lexer.finds_of_other hother))
    · intro token? u hrun token htoken
      exact hskips.finds (ensures_plainToken (hskips.room hroom) token? u hrun token htoken)
  rw [tokenHere]
  apply ensures_get_bind
  extract_lets outsideNames
  split
  · exact ensures_markupToken hroom
  · split
    · refine (ensures_tagToken? hroom).bind ?_
      intro token? t hcomes
      cases token? with
      | some token => exact ensures_pure (Lexer.findsIn_some hcomes)
      | none => exact hlast t hcomes
    · exact hlast s ⟨rfl, Or.inr (.refl _)⟩

theorem ensures_orMalformed {t : Lexer} {read : Lex (Option Token)} (hread : Ensures read t s.FindsIn) :
    Ensures (orMalformed read) t s.FindsIn := by
  intro token? u hrun
  rw [orMalformed] at hrun
  split at hrun
  · cases hrun
    exact Lexer.findsIn_some (Lexer.finds_of_other rfl)
  · exact hread token? u hrun

theorem ensures_finish {t : Lexer} {action : Lex (Option Token)} (start : Nat)
    (haction : Ensures action t s.FindsIn) :
    Ensures (do
      match ← action with
      | none => return none
      | some token =>
        let lineBreak := (← get).lineBreak
        modify (·.afterToken token start)
        return some ⟨token, ⟨start, (← get).position⟩, lineBreak⟩) t
      fun lexeme? u => s.FindsIn (lexeme?.map Lexeme.token) u := by
  refine haction.bind ?_
  intro token? u hfinds
  cases token? with
  | none => exact ensures_pure hfinds
  | some token =>
      rintro _ v hrun
      cases hrun
      exact hfinds

/-- The lexer comes to a name in a tag or to an equals sign where nothing but filler stands in front of it. -/
theorem ensures_next (hroom : s.rest.length < s.size) :
    Ensures next s fun lexeme? t => s.FindsIn (lexeme?.map Lexeme.token) t := by
  have hother : ∀ {read : Lex Token}, FindsOther read →
      Ensures (orMalformed (some <$> read)) s s.FindsIn := by
    intro read hread
    apply ensures_orMalformed
    apply ensures_map
    intro token t hrun
    exact Lexer.findsIn_some (Lexer.finds_of_other (hread s token t hrun))
  rw [next]
  apply ensures_get_bind
  split
  · exact ensures_finish _ (hother (findsOther_regexp _))
  apply ensures_get_bind
  apply ensures_startsWith_bind
  split
  · apply ensures_get_bind
    exact ensures_finish _ (hother findsOther_shebang)
  apply ensures_modify_bind
  apply ensures_get_bind
  extract_lets last
  have hlast : ∀ t, s.Skips t →
      Ensures (last ()) t fun lexeme? u => s.FindsIn (lexeme?.map Lexeme.token) u := by
    intro t hskips
    apply ensures_get_bind
    apply ensures_peek_bind
    split
    · exact ensures_bind fun _ u => ensures_pure (Lexer.findsIn_none s u)
    · apply ensures_finish
      apply ensures_orMalformed
      intro token? u hrun token htoken
      exact hskips.finds (ensures_tokenHere (hskips.room hroom) token? u hrun token htoken)
  split
  · refine (leaves_skipSpace (by exact hroom)).ensures.bind ?_
    rintro _ t ⟨hsize, hleft⟩
    exact hlast t ⟨hsize, hleft.imp id .of_dropWhile⟩
  · exact hlast _ ⟨rfl, Or.inr (.refl _)⟩

theorem fillerLeads_of_next {t : Lexer} {lexeme? : Option Lexeme} {token : Token} {written : List Char}
    (hroom : s.rest.length < s.size) (hnext : next s = .ok lexeme? t)
    (htoken : lexeme?.map Lexeme.token = some token) (hwritten : token.written? = some written) :
    t.size = s.size ∧ FillerLeads s.rest (written ++ t.rest) :=
  (ensures_next hroom lexeme? t hnext token htoken written hwritten).2

end Tokens

end Lex

end BreakpointProps.Script
