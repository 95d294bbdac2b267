import BreakpointProps.Proofs.Text.CharClass
import BreakpointProps.Script.Lexer.Blank

/-!
What a reader of scripts passes over between two tokens: blanks, ends of lines and comments. The lexer
passes over nothing else.
-/

namespace BreakpointProps.Script

/-- What ends a line of a script. -/
inductive LineStop where
  | feed
  | return_
  | returnFeed
  | lineSeparator
  | paragraphSeparator
  deriving DecidableEq, Repr

/-- The characters that end the line. -/
def LineStop.text : LineStop → List Char
  | feed => ['\n']
  | return_ => ['\r']
  | returnFeed => ['\r', '\n']
  | lineSeparator => ['\u2028']
  | paragraphSeparator => ['\u2029']

/-- Is the last of the characters a line feed? -/
def LineStop.endsWithFeed : LineStop → Bool
  | feed | returnFeed => true
  | _ => false

/-- What a reader of scripts passes over at once between two tokens. -/
inductive Filler where
  /-- A blank or an end of a line. -/
  | space (c : Char)
  | blockComment (text : List Char)
  | lineComment (text : List Char) (stop : LineStop)
  /-- A line behind a mark that makes it count as a comment, though it is none of this language. -/
  | foreignLine (mark : List Char) (text : List Char) (stop : LineStop)

/-- Is the character passed over on its own? -/
def isSpace (c : Char) : Bool := isBlank c || isLineEnd c

/-- A blank or an end of a line is white space or the byte order mark. -/
theorem isWhiteSpace_or_of_isSpace {c : Char} (hspace : isSpace c = true) :
    Text.isWhiteSpace c = true ∨ c = '\ufeff' := by
  simp only [isSpace, isBlank, Bool.or_eq_true, Bool.and_eq_true, beq_iff_eq] at hspace
  rcases hspace with (⟨hwhite, -⟩ | hmark) | hend
  · exact Or.inl hwhite
  · exact Or.inr hmark
  · simp only [isLineEnd, Bool.or_eq_true, beq_iff_eq] at hend
    rcases hend with ((rfl | rfl) | rfl) | rfl <;> exact Or.inl (by decide)

theorem mem_of_isSpace {c : Char} (hspace : isSpace c = true) :
    c.toNat ∈ [9, 10, 11, 12, 13, 32] ∨ c.toNat ∈ Text.highBlanks := by
  rcases isWhiteSpace_or_of_isSpace hspace with hwhite | rfl
  · exact Text.mem_of_isWhiteSpace hwhite
  · exact Or.inr (by decide)

/-- No name starts with a blank or the end of a line. -/
theorem isSpace_of_isIdentifierStart {c : Char} (hstart : Text.isIdentifierStart c = true) :
    isSpace c = false := by
  cases hspace : isSpace c with
  | false => rfl
  | true =>
      rcases mem_of_isSpace hspace with hmem | hmem
      · have hlow : ∀ n ∈ [9, 10, 11, 12, 13, 32], Text.isIdentifierStart (Char.ofNat n) = false := by
          decide +kernel
        have hnone := hlow _ hmem
        rw [Char.ofNat_toNat] at hnone
        exact absurd (hnone.symm.trans hstart) Bool.false_ne_true
      · exact absurd ((Text.isIdentifierStart_of_mem_highBlanks hmem).symm.trans hstart) Bool.false_ne_true

namespace Filler

/-- The marks of lines that are passed over with a fault that may be forgotten. -/
def foreignMarks : List (List Char) :=
  ["<!--".toList, "-->".toList, "<<<<<<< ".toList, ">>>>>>> ".toList, "=======".toList]

/-- How the filler is written. -/
def text : Filler → List Char
  | space c => [c]
  | blockComment text => '/' :: '*' :: text ++ ['*', '/']
  | lineComment text stop => '/' :: '/' :: text ++ stop.text
  | foreignLine mark text stop => mark ++ text ++ stop.text

/-- Is this filler, rather than something that is only written like it? -/
def IsProper : Filler → Prop
  | space c => Text.isWhiteSpace c = true ∨ c = '\ufeff'
  | blockComment text => ¬ ['*', '/'] <:+: text
  | lineComment text _ => ∀ c ∈ text, isLineEnd c = false
  | foreignLine mark text _ => mark ∈ foreignMarks ∧ ∀ c ∈ text, isLineEnd c = false

end Filler

/-- Filler leads from one text to another one, which is left of it. -/
def FillerLeads (text rest : List Char) : Prop :=
  ∃ gap : List Filler, (∀ filler ∈ gap, filler.IsProper) ∧ text = gap.flatMap Filler.text ++ rest

theorem FillerLeads.refl (text : List Char) : FillerLeads text text := ⟨[], by simp, rfl⟩

theorem FillerLeads.cons (filler : Filler) (hproper : filler.IsProper) {text rest : List Char}
    (hleads : FillerLeads text rest) : FillerLeads (filler.text ++ text) rest := by
  obtain ⟨gap, hgap, rfl⟩ := hleads
  refine ⟨filler :: gap, ?_, by simp⟩
  intro other hother
  rcases List.mem_cons.mp hother with rfl | hmem
  · exact hproper
  · exact hgap other hmem

/-- Blanks are filler. -/
theorem FillerLeads.of_dropWhile {text rest : List Char}
    (hleads : FillerLeads (text.dropWhile isSpace) rest) : FillerLeads text rest := by
  induction text with
  | nil => exact hleads
  | cons c cs ih =>
      rw [List.dropWhile_cons] at hleads
      split at hleads
      · rename_i hspace
        exact FillerLeads.cons (.space c) (isWhiteSpace_or_of_isSpace hspace) (ih hleads)
      · exact hleads

/-- A character that ends a line ends a comment. -/
theorem exists_lineStop {c : Char} (hend : isLineEnd c = true) : ∃ stop : LineStop, stop.text = [c] := by
  simp only [isLineEnd, Bool.or_eq_true, beq_iff_eq] at hend
  rcases hend with ((rfl | rfl) | rfl) | rfl
  · exact ⟨.feed, rfl⟩
  · exact ⟨.return_, rfl⟩
  · exact ⟨.lineSeparator, rfl⟩
  · exact ⟨.paragraphSeparator, rfl⟩

theorem FillerLeads.eq_nil {rest : List Char} (hleads : FillerLeads [] rest) : rest = [] := by
  obtain ⟨gap, _, hnil⟩ := hleads
  exact (List.append_eq_nil_iff.mp hnil.symm).2

theorem FillerLeads.blockComment {comment text rest : List Char} (hcomment : ¬ ['*', '/'] <:+: comment)
    (hleads : FillerLeads text rest) :
    FillerLeads ('/' :: '*' :: (comment ++ '*' :: '/' :: text)) rest := by
  simpa [Filler.text] using hleads.cons (.blockComment comment) hcomment

/-- Filler behind a line leads on from behind the end of the line, unless nothing is left. -/
theorem FillerLeads.exists_line {text rest : List Char}
    (hleads : FillerLeads ((text.dropWhile fun c => !isLineEnd c).dropWhile isSpace) rest) :
    rest = [] ∨ ∃ (line : List Char) (stop : LineStop) (more : List Char), text = line ++ stop.text ++ more ∧
      (∀ c ∈ line, isLineEnd c = false) ∧ FillerLeads more rest := by
  have hsplit := List.takeWhile_append_dropWhile (p := fun c => !isLineEnd c) (l := text)
  have hhead := List.head?_dropWhile_not (fun c => !isLineEnd c) text
  cases hline : text.dropWhile fun c => !isLineEnd c with
  | nil =>
      rw [hline] at hleads
      exact Or.inl hleads.eq_nil
  | cons c more =>
      rw [hline] at hleads hhead hsplit
      have hend : isLineEnd c = true := by simpa using hhead
      have hspace : isSpace c = true := by simp [isSpace, hend]
      rw [List.dropWhile_cons_of_pos hspace] at hleads
      obtain ⟨stop, hstop⟩ := exists_lineStop hend
      refine Or.inr ⟨text.takeWhile fun c => !isLineEnd c, stop, more, ?_, fun d hd => ?_, hleads.of_dropWhile⟩
      · rw [hstop, List.append_assoc]
        exact hsplit.symm
      · simpa using List.all_eq_true.mp List.all_takeWhile d hd

/-- A comment to the end of the line is filler if something is left behind it. -/
theorem FillerLeads.lineComment {text rest : List Char}
    (hleads : FillerLeads ((text.dropWhile fun c => !isLineEnd c).dropWhile isSpace) rest) :
    rest = [] ∨ FillerLeads ('/' :: '/' :: text) rest := by
  rcases hleads.exists_line with hnil | ⟨line, stop, more, rfl, hline, hmore⟩
  · exact Or.inl hnil
  · exact Or.inr (by simpa [Filler.text] using hmore.cons (.lineComment line stop) hline)

/-- So is a line behind a mark that is foreign to the language. -/
theorem FillerLeads.foreignLine {mark text rest : List Char} (hmark : mark ∈ Filler.foreignMarks)
    (hleads : FillerLeads ((text.dropWhile fun c => !isLineEnd c).dropWhile isSpace) rest) :
    rest = [] ∨ FillerLeads (mark ++ text) rest := by
  rcases hleads.exists_line with hnil | ⟨line, stop, more, rfl, hline, hmore⟩
  · exact Or.inl hnil
  · exact Or.inr (by simpa [Filler.text] using hmore.cons (.foreignLine mark line stop) ⟨hmark, hline⟩)

theorem FillerLeads.trans {text between rest : List Char} (hfirst : FillerLeads text between)
    (hlast : FillerLeads between rest) : FillerLeads text rest := by
  obtain ⟨gap, hgap, rfl⟩ := hfirst
  obtain ⟨more, hmore, rfl⟩ := hlast
  refine ⟨gap ++ more, fun filler hfiller => ?_, by simp⟩
  exact (List.mem_append.mp hfiller).elim (hgap filler) (hmore filler)

theorem FillerLeads.length_le {text rest : List Char} (hleads : FillerLeads text rest) :
    rest.length ≤ text.length := by
  obtain ⟨gap, -, rfl⟩ := hleads
  exact (List.suffix_append _ rest).length_le

namespace Lex

section Leaves

variable {α β : Type} {post : List Char → Prop}

/-- The action does not fail, and this holds of the text that it leaves. -/
def Leaves (action : Lex α) (s : Lexer) (post : List Char → Prop) : Prop :=
  ∃ value t, action s = .ok value t ∧ t.size = s.size ∧ post t.rest

/-- An action that comes after another one starts from what that one leaves. -/
theorem Leaves.bind {first : Lex α} {next : α → Lex β} {s : Lexer} {between : List Char → Prop}
    (hfirst : Leaves first s between)
    (hnext : ∀ value t, t.size = s.size → between t.rest → Leaves (next value) t post) :
    Leaves (first >>= next) s post := by
  obtain ⟨value, t, hvalue, hsize, hbetween⟩ := hfirst
  obtain ⟨result, u, hresult, hsize', hpost⟩ := hnext value t hsize hbetween
  refine ⟨result, u, ?_, hsize'.trans hsize, hpost⟩
  change EStateM.bind first next s = _
  rw [EStateM.bind, hvalue]
  exact hresult

theorem Leaves.mono {action : Lex α} {s : Lexer} {p : List Char → Prop} (haction : Leaves action s p)
    (hpost : ∀ rest, p rest → post rest) : Leaves action s post := by
  obtain ⟨value, t, hvalue, hsize, ht⟩ := haction
  exact ⟨value, t, hvalue, hsize, hpost _ ht⟩

theorem leaves_get_bind {next : Lexer → Lex β} {s : Lexer} (hnext : Leaves (next s) s post) :
    Leaves (get >>= next) s post := hnext

theorem leaves_peek_bind {next : Option Char → Lex β} {s : Lexer}
    (hnext : Leaves (next s.rest.head?) s post) : Leaves (peek >>= next) s post := hnext

theorem leaves_peekSecond_bind {next : Option Char → Lex β} {s : Lexer}
    (hnext : Leaves (next s.rest[1]?) s post) : Leaves (peekSecond >>= next) s post := hnext

theorem leaves_pure {value : α} {s : Lexer} (hpost : post s.rest) :
    Leaves (pure value) s post := ⟨value, s, rfl, rfl, hpost⟩

theorem leaves_modify {s : Lexer} {change : Lexer → Lexer} (hsize : (change s).size = s.size)
    (hpost : post (change s).rest) : Leaves (modify change) s post := ⟨(), change s, rfl, hsize, hpost⟩

theorem leaves_keepComment (s : Lexer) (comment : Comment) (leadsNext : Bool) :
    Leaves (keepComment comment leadsNext) s (· = s.rest) := by
  apply leaves_modify <;> split <;> rfl

theorem leaves_withText {action : Lex Unit} {s : Lexer} (haction : Leaves action s post) :
    Leaves (withText action) s post := by
  apply leaves_get_bind
  apply haction.bind
  intro _ t _ ht
  apply leaves_get_bind
  exact leaves_pure ht

end Leaves

theorem fst_skipWhile_go (p : Char → Bool) (text : List Char) (position : Nat) :
    (skipWhile.go p text position).1 = text.dropWhile p := by
  induction text generalizing position with
  | nil => rfl
  | cons c cs ih =>
      rw [skipWhile.go, List.dropWhile_cons]
      split
      · exact ih _
      · rfl

theorem leaves_skipWhile (p : Char → Bool) (s : Lexer) :
    Leaves (skipWhile p) s (· = s.rest.dropWhile p) :=
  leaves_modify rfl (fst_skipWhile_go p s.rest s.position)

theorem leaves_skipMany (s : Lexer) (n : Nat) : Leaves (skipMany n) s (· = s.rest.drop n) := by
  induction n generalizing s with
  | zero => exact leaves_pure rfl
  | succ n ih =>
      have hskip : Leaves skip s (· = s.rest.drop 1) := by
        apply leaves_modify <;> cases hrest : s.rest <;> simp [hrest]
      apply hskip.bind
      intro _ t _ ht
      apply (ih t).mono
      intro rest hrest
      rw [hrest, ht, List.drop_drop, Nat.add_comm]

theorem leaves_blanks (s : Lexer) : Leaves blanks s (· = s.rest.dropWhile isSpace) := by
  apply leaves_get_bind
  apply (leaves_skipWhile isSpace s).bind
  intro _ t _ ht
  apply leaves_get_bind
  split
  · exact leaves_modify rfl ht
  · exact leaves_pure ht

theorem leaves_lineComment (s : Lexer) (skipped : Nat) :
    Leaves (lineComment skipped) s (· = (s.rest.drop skipped).dropWhile fun c => !isLineEnd c) := by
  apply leaves_get_bind
  apply (leaves_skipMany s skipped).bind
  intro _ t _ ht
  apply (leaves_withText (leaves_skipWhile (fun c => !isLineEnd c) t)).bind
  rintro ⟨_, text⟩ u _ hu
  rw [ht] at hu
  apply leaves_get_bind
  apply (leaves_keepComment u _ _).mono
  exact fun rest hrest => hrest.trans hu

/-- A block comment ends at the first of the marks that can end it. -/
theorem eq_of_blockCommentEnd?_eq_some {text rest : List Char} {position stop : Nat}
    (hend : blockCommentEnd? text position = some (rest, stop)) :
    ∃ comment, text = comment ++ '*' :: '/' :: rest ∧ ¬ ['*', '/'] <:+: comment := by
  fun_induction blockCommentEnd? text position with
  | case1 position cs =>
      obtain ⟨rfl, _⟩ := Prod.mk.inj (Option.some.inj hend)
      exact ⟨[], rfl, by simp⟩
  | case2 c cs position hnot ih =>
      obtain ⟨comment, rfl, hcomment⟩ := ih hend
      refine ⟨c :: comment, rfl, ?_⟩
      rw [List.infix_cons_iff]
      rintro (hstart | hinside)
      · obtain ⟨after, hafter⟩ := hstart
        obtain ⟨hstar, hrest⟩ := List.cons.inj hafter
        cases comment with
        | nil => simp at hrest
        | cons d more =>
            obtain ⟨hslash, _⟩ := List.cons.inj hrest
            exact hnot _ hstar.symm (by rw [← hslash]; rfl)
      · exact hcomment hinside
  | case3 => exact absurd hend (by simp)

theorem leaves_blanks_keepComment (s : Lexer) (comment : Comment) (leadsNext : Option Char → Bool) :
    Leaves (do blanks; let c ← peek; keepComment comment (leadsNext c)) s
      (· = s.rest.dropWhile isSpace) := by
  apply (leaves_blanks s).bind
  intro _ t _ ht
  apply leaves_peek_bind
  rw [← ht]
  exact leaves_keepComment t _ _

/-- Passing a block comment passes the blanks behind it too. -/
theorem leaves_blockComment (s : Lexer) :
    Leaves blockComment s fun rest => rest = [] ∨
      ∃ comment after, s.rest.drop 2 = comment ++ '*' :: '/' :: after ∧ ¬ ['*', '/'] <:+: comment ∧
        rest = after.dropWhile isSpace := by
  apply leaves_get_bind
  apply (leaves_skipMany s 2).bind
  intro _ t _ ht
  apply leaves_get_bind
  split
  · apply (leaves_skipWhile (fun _ => true) t).bind
    intro _ u _ hu
    have hnil : u.rest = [] := by
      rw [hu]
      induction t.rest <;> simp_all
    apply leaves_modify
    · split <;> rfl
    · split <;> exact Or.inl hnil
  · rename_i after stop hend
    obtain ⟨text, htext, hproper⟩ := eq_of_blockCommentEnd?_eq_some hend
    rw [ht] at htext
    apply Leaves.mono (p := (· = after.dropWhile isSpace))
    · have hmoved : Leaves (modify fun s => { s with rest := after, position := stop }) t (· = after) :=
        leaves_modify rfl rfl
      apply hmoved.bind
      rintro _ u _ rfl
      dsimp only
      split
      · have hmarked : Leaves (modify fun s => { s with lineBreak := true }) u (· = u.rest) :=
          leaves_modify rfl rfl
        apply hmarked.bind
        intro _ v _ hv
        rw [← hv]
        exact leaves_blanks_keepComment v _ _
      · exact leaves_blanks_keepComment u _ _
    · rintro _ rfl
      exact Or.inr ⟨text, after, htext, hproper, rfl⟩

theorem exists_cons_cons {text : List Char} {c d : Char} (hfirst : text.head? = some c)
    (hsecond : text[1]? = some d) : ∃ rest, text = c :: d :: rest := by
  match text with
  | [] => simp at hfirst
  | [_] => simp at hsecond
  | a :: b :: rest =>
      obtain rfl : a = c := by simpa using hfirst
      obtain rfl : b = d := by simpa using hsecond
      exact ⟨rest, rfl⟩

/-- A comment was passed on the way from one text to another one: filler that leads on from there, behind
blanks, leads on from the comment, unless it leads to the end. -/
def PassesComment (text left : List Char) : Prop :=
  left.length < text.length ∧
    ∀ rest, FillerLeads (left.dropWhile isSpace) rest → rest = [] ∨ FillerLeads text rest

theorem leaves_lineComment_of_rest {s : Lexer} {text : List Char} (hrest : s.rest = '/' :: '/' :: text) :
    Leaves (lineComment 2) s (PassesComment s.rest) := by
  apply (leaves_lineComment s 2).mono
  intro left hleft
  rw [hrest, List.drop_succ_cons, List.drop_succ_cons, List.drop_zero] at hleft
  rw [hrest, hleft]
  constructor
  · have hshorter := (List.dropWhile_sublist (l := text) fun c => !isLineEnd c).length_le
    simp only [List.length_cons]
    omega
  · intro rest hleads
    exact hleads.lineComment

theorem leaves_blockComment_of_rest {s : Lexer} {text : List Char} (hrest : s.rest = '/' :: '*' :: text) :
    Leaves blockComment s (PassesComment s.rest) := by
  apply (leaves_blockComment s).mono
  intro left hleft
  rw [hrest, List.drop_succ_cons, List.drop_succ_cons, List.drop_zero] at hleft
  rw [hrest]
  rcases hleft with rfl | ⟨comment, after, rfl, hcomment, rfl⟩
  · constructor
    · simp
    · intro rest hleads
      exact Or.inl hleads.eq_nil
  · constructor
    · have hshorter := (List.dropWhile_sublist (l := after) isSpace).length_le
      simp only [List.length_cons, List.length_append]
      omega
    · intro rest hleads
      exact Or.inr (.blockComment hcomment hleads.of_dropWhile.of_dropWhile)

theorem leaves_skipSpaceSteps {n : Nat} {s : Lexer} (hfuel : s.rest.length < n) :
    Leaves (skipSpaceSteps n) s fun rest =>
      rest = [] ∨ FillerLeads (s.rest.dropWhile isSpace) rest := by
  induction n generalizing s with
  | zero => exact absurd hfuel (Nat.not_lt_zero _)
  | succ n ih =>
      have hgoesOn : ∀ {t u : Lexer}, t.rest = s.rest.dropWhile isSpace → PassesComment t.rest u.rest →
          Leaves (skipSpaceSteps n) u fun rest => rest = [] ∨ FillerLeads t.rest rest := by
        rintro t u ht ⟨hshorter, hleads⟩
        have hlength : t.rest.length ≤ s.rest.length := by
          rw [ht]
          exact (List.dropWhile_sublist _).length_le
        apply (ih (by omega)).mono
        rintro rest (hnil | hmore)
        · exact Or.inl hnil
        · exact hleads rest hmore
      apply (leaves_blanks s).bind
      intro _ t _ ht
      rw [← ht]
      apply leaves_peek_bind
      split
      · rename_i hfirst
        apply leaves_peekSecond_bind
        split
        · rename_i hsecond
          obtain ⟨text, htext⟩ := exists_cons_cons (by simpa using hfirst) hsecond
          apply (leaves_lineComment_of_rest htext).bind
          intro _ u _ hu
          exact hgoesOn ht hu
        · rename_i hsecond
          obtain ⟨text, htext⟩ := exists_cons_cons (by simpa using hfirst) hsecond
          apply (leaves_blockComment_of_rest htext).bind
          intro _ u _ hu
          exact hgoesOn ht hu
        · exact leaves_pure (Or.inr (.refl _))
      · exact leaves_pure (Or.inr (.refl _))

/-- What the lexer passes over between two tokens is filler, unless nothing is left behind it. -/
theorem leaves_skipSpace {s : Lexer} (hroom : s.rest.length < s.size) :
    Leaves skipSpace s fun rest => rest = [] ∨ FillerLeads (s.rest.dropWhile isSpace) rest := by
  apply leaves_get_bind
  exact leaves_skipSpaceSteps hroom

/-- From the middle of a mark that makes a line count as a comment, the lexer passes over the line. -/
theorem leaves_line {s : Lexer} (hroom : s.rest.length < s.size) (taken : Nat) :
    Leaves (do lineComment taken; skipSpace) s fun rest => rest = [] ∨
      FillerLeads (((s.rest.drop taken).dropWhile fun c => !isLineEnd c).dropWhile isSpace) rest := by
  apply (leaves_lineComment s taken).bind
  rintro _ t hsize ht
  rw [← ht]
  apply leaves_skipSpace
  have hshorter := (List.dropWhile_sublist (l := s.rest.drop taken) fun c => !isLineEnd c).length_le
  rw [← ht, List.length_drop] at hshorter
  omega

end Lex

end BreakpointProps.Script
