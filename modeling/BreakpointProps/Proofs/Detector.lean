import BreakpointProps.Detector

/-!
What the quick test sees: the texts in which the name of a breakpoint starts a word and white space
and comments lead from it to an equals sign.
-/

namespace BreakpointProps.Detector

/-- What the quick test passes over at once: a blank, or a comment that may be taken to end at any of
the marks that can end it. -/
inductive Piece : List Char → Prop where
  | space (c : Char) : Text.isWhiteSpace c = true → Piece [c]
  | block (text : List Char) : Piece ('/' :: '*' :: text ++ ['*', '/'])
  | line (text : List Char) : '\n' ∉ text → Piece ('/' :: '/' :: text ++ ['\n'])

/-- A text that the quick test passes over between a name and its equals sign. -/
def Passed (text : List Char) : Prop :=
  ∃ pieces : List (List Char), (∀ piece ∈ pieces, Piece piece) ∧ text = pieces.flatten

/-- What is passed over behind the star that opens a block comment. -/
def PassedInBlock (text : List Char) : Prop :=
  ∃ comment rest, text = comment ++ '*' :: '/' :: rest ∧ Passed rest

/-- What is passed over behind the slashes that open a comment to the end of the line. -/
def PassedInLine (text : List Char) : Prop :=
  ∃ comment rest, '\n' ∉ comment ∧ text = comment ++ '\n' :: rest ∧ Passed rest

theorem passed_nil : Passed [] := ⟨[], by simp, rfl⟩

theorem Passed.append {left right : List Char} (hleft : Passed left) (hright : Passed right) :
    Passed (left ++ right) := by
  obtain ⟨before, hbefore, rfl⟩ := hleft
  obtain ⟨after, hafter, rfl⟩ := hright
  refine ⟨before ++ after, ?_, by simp⟩
  intro piece hpiece
  rcases List.mem_append.mp hpiece with hmem | hmem
  · exact hbefore piece hmem
  · exact hafter piece hmem

theorem Piece.passed {piece : List Char} (hpiece : Piece piece) : Passed piece := by
  refine ⟨[piece], ?_, by simp⟩
  intro other hother
  rwa [List.mem_singleton.mp hother]

/-- The first character decides which piece comes first. -/
theorem passed_cons_iff (c : Char) (text : List Char) :
    Passed (c :: text) ↔
      (Text.isWhiteSpace c = true ∧ Passed text) ∨
      (c = '/' ∧ ∃ rest, text = '*' :: rest ∧ PassedInBlock rest) ∨
      (c = '/' ∧ ∃ rest, text = '/' :: rest ∧ PassedInLine rest) := by
  constructor
  · rintro ⟨pieces, hpieces, htext⟩
    cases pieces with
    | nil => simp at htext
    | cons piece more =>
        have hmore : Passed more.flatten := by
          refine ⟨more, ?_, rfl⟩
          intro other hother
          exact hpieces other (List.mem_cons_of_mem _ hother)
        cases hpieces piece List.mem_cons_self with
        | space d hspace =>
            obtain ⟨rfl, rfl⟩ := List.cons.inj htext
            exact Or.inl ⟨hspace, hmore⟩
        | block comment =>
            obtain ⟨rfl, rfl⟩ := List.cons.inj htext
            exact Or.inr (Or.inl ⟨rfl, _, rfl, comment, more.flatten, by simp, hmore⟩)
        | line comment hline =>
            obtain ⟨rfl, rfl⟩ := List.cons.inj htext
            exact Or.inr (Or.inr ⟨rfl, _, rfl, comment, more.flatten, hline, by simp, hmore⟩)
  · rintro (⟨hspace, hrest⟩ | ⟨rfl, _, rfl, comment, rest, rfl, hrest⟩ |
      ⟨rfl, _, rfl, comment, rest, hline, rfl, hrest⟩)
    · exact (Piece.space c hspace).passed.append hrest
    · simpa using (Piece.block comment).passed.append hrest
    · simpa using (Piece.line comment hline).passed.append hrest

theorem not_passedInBlock_nil : ¬ PassedInBlock [] := by
  rintro ⟨comment, rest, htext, _⟩
  simp at htext

theorem not_passedInLine_nil : ¬ PassedInLine [] := by
  rintro ⟨comment, rest, _, htext, _⟩
  simp at htext

theorem passedInBlock_cons_iff (c : Char) (text : List Char) :
    PassedInBlock (c :: text) ↔
      (c = '*' ∧ ∃ rest, text = '/' :: rest ∧ Passed rest) ∨ PassedInBlock text := by
  constructor
  · rintro ⟨comment, rest, htext, hrest⟩
    cases comment with
    | nil =>
        obtain ⟨rfl, rfl⟩ := List.cons.inj htext
        exact Or.inl ⟨rfl, rest, rfl, hrest⟩
    | cons d more =>
        obtain ⟨rfl, rfl⟩ := List.cons.inj htext
        exact Or.inr ⟨more, rest, rfl, hrest⟩
  · rintro (⟨rfl, rest, rfl, hrest⟩ | ⟨comment, rest, rfl, hrest⟩)
    · exact ⟨[], rest, rfl, hrest⟩
    · exact ⟨c :: comment, rest, rfl, hrest⟩

theorem passedInLine_cons_iff (c : Char) (text : List Char) :
    PassedInLine (c :: text) ↔ (c = '\n' ∧ Passed text) ∨ (c ≠ '\n' ∧ PassedInLine text) := by
  constructor
  · rintro ⟨comment, rest, hline, htext, hrest⟩
    cases comment with
    | nil =>
        obtain ⟨rfl, rfl⟩ := List.cons.inj htext
        exact Or.inl ⟨rfl, hrest⟩
    | cons d more =>
        obtain ⟨rfl, rfl⟩ := List.cons.inj htext
        simp only [List.mem_cons, not_or] at hline
        exact Or.inr ⟨Ne.symm hline.1, more, rest, hline.2, rfl, hrest⟩
  · rintro (⟨rfl, hrest⟩ | ⟨hne, comment, rest, hline, rfl, hrest⟩)
    · exact ⟨[], text, by simp, rfl, hrest⟩
    · exact ⟨c :: comment, rest, by simp [Ne.symm hne, hline], rfl, hrest⟩

namespace Gap

/-- The texts that lead from a place with these readings to the end of a piece. -/
def Accepts (gap : Gap) (text : List Char) : Prop :=
  (gap.outside = true ∧ Passed text) ∨
  (gap.slash = true ∧ ∃ rest, text = '*' :: rest ∧ PassedInBlock rest) ∨
  (gap.slash = true ∧ ∃ rest, text = '/' :: rest ∧ PassedInLine rest) ∨
  (gap.block = true ∧ PassedInBlock text) ∨
  (gap.star = true ∧ ∃ rest, text = '/' :: rest ∧ Passed rest) ∨
  (gap.line = true ∧ PassedInLine text)

theorem accepts_start_iff (text : List Char) : start.Accepts text ↔ Passed text := by
  simp [Accepts, start]

theorem accepts_nil_iff (gap : Gap) : gap.Accepts [] ↔ gap.outside = true := by
  simp [Accepts, passed_nil, not_passedInBlock_nil, not_passedInLine_nil]

/-- Reading one more character takes it off the texts that lead on. -/
theorem accepts_step_iff (gap : Gap) (c : Char) (text : List Char) :
    (gap.step c).Accepts text ↔ gap.Accepts (c :: text) := by
  have hhead : ∀ (d : Char) (p : List Char → Prop),
      (∃ rest, c :: text = d :: rest ∧ p rest) ↔ c = d ∧ p text := by
    intro d p
    simp only [List.cons.injEq]
    constructor
    · rintro ⟨rest, ⟨hc, rfl⟩, hrest⟩
      exact ⟨hc, hrest⟩
    · rintro ⟨hc, hrest⟩
      exact ⟨text, ⟨hc, rfl⟩, hrest⟩
  simp only [Accepts, step, hhead, passed_cons_iff, passedInBlock_cons_iff, passedInLine_cons_iff,
    Bool.or_eq_true, Bool.and_eq_true, beq_iff_eq, bne_iff_ne]
  constructor
  · rintro (⟨hended, hrest⟩ | ⟨hslash, hrest⟩ | ⟨hslash, hrest⟩ | ⟨hblock, hrest⟩ | ⟨hstar, hrest⟩ |
      ⟨hline, hrest⟩)
    · rcases hended with (⟨houtside, hspace⟩ | ⟨hstar, hc⟩) | ⟨hline, hc⟩
      · exact Or.inl ⟨houtside, Or.inl ⟨hspace, hrest⟩⟩
      · exact Or.inr (Or.inr (Or.inr (Or.inr (Or.inl ⟨hstar, hc, hrest⟩))))
      · exact Or.inr (Or.inr (Or.inr (Or.inr (Or.inr ⟨hline, Or.inl ⟨hc, hrest⟩⟩))))
    · exact Or.inl ⟨hslash.1, Or.inr (Or.inl ⟨hslash.2, hrest⟩)⟩
    · exact Or.inl ⟨hslash.1, Or.inr (Or.inr ⟨hslash.2, hrest⟩)⟩
    · rcases hblock with ⟨hslash, hc⟩ | hblock
      · exact Or.inr (Or.inl ⟨hslash, hc, hrest⟩)
      · exact Or.inr (Or.inr (Or.inr (Or.inl ⟨hblock, Or.inr hrest⟩)))
    · exact Or.inr (Or.inr (Or.inr (Or.inl ⟨hstar.1, Or.inl ⟨hstar.2, hrest⟩⟩)))
    · rcases hline with ⟨hslash, hc⟩ | ⟨hline, hc⟩
      · exact Or.inr (Or.inr (Or.inl ⟨hslash, hc, hrest⟩))
      · exact Or.inr (Or.inr (Or.inr (Or.inr (Or.inr ⟨hline, Or.inr ⟨hc, hrest⟩⟩))))
  · rintro (⟨houtside, hpiece⟩ | ⟨hslash, hc, hrest⟩ | ⟨hslash, hc, hrest⟩ | ⟨hblock, hpiece⟩ |
      ⟨hstar, hc, hrest⟩ | ⟨hline, hpiece⟩)
    · rcases hpiece with ⟨hspace, hrest⟩ | ⟨hc, hrest⟩ | ⟨hc, hrest⟩
      · exact Or.inl ⟨Or.inl (Or.inl ⟨houtside, hspace⟩), hrest⟩
      · exact Or.inr (Or.inl ⟨⟨houtside, hc⟩, hrest⟩)
      · exact Or.inr (Or.inr (Or.inl ⟨⟨houtside, hc⟩, hrest⟩))
    · exact Or.inr (Or.inr (Or.inr (Or.inl ⟨Or.inl ⟨hslash, hc⟩, hrest⟩)))
    · exact Or.inr (Or.inr (Or.inr (Or.inr (Or.inr ⟨Or.inl ⟨hslash, hc⟩, hrest⟩))))
    · rcases hpiece with ⟨hc, hrest⟩ | hrest
      · exact Or.inr (Or.inr (Or.inr (Or.inr (Or.inl ⟨⟨hblock, hc⟩, hrest⟩))))
      · exact Or.inr (Or.inr (Or.inr (Or.inl ⟨Or.inr hblock, hrest⟩)))
    · exact Or.inl ⟨Or.inl (Or.inr ⟨hstar, hc⟩), hrest⟩
    · rcases hpiece with ⟨hc, hrest⟩ | ⟨hc, hrest⟩
      · exact Or.inl ⟨Or.inr ⟨hline, hc⟩, hrest⟩
      · exact Or.inr (Or.inr (Or.inr (Or.inr (Or.inr ⟨Or.inr ⟨hline, hc⟩, hrest⟩))))

/-- Behind a star a block comment goes on or ends. -/
def IsReachable (gap : Gap) : Prop := gap.star = true → gap.block = true

theorem isReachable_step (gap : Gap) (c : Char) : (gap.step c).IsReachable := by
  simp only [IsReachable, step, Bool.and_eq_true, Bool.or_eq_true]
  rintro ⟨hblock, _⟩
  exact Or.inr hblock

/-- Without a reading there is nothing to go on with. -/
theorem not_accepts_of_isDead {gap : Gap} (hreachable : gap.IsReachable) (hdead : gap.isDead = true)
    (text : List Char) : ¬ gap.Accepts text := by
  simp only [isDead, Bool.not_eq_true', Bool.or_eq_false_iff] at hdead
  have hstar : gap.star = false := by
    rw [← Bool.not_eq_true]
    intro hstar
    simp [hreachable hstar] at hdead
  simp [Accepts, hdead, hstar]

theorem reachesEquals_iff {gap : Gap} (hreachable : gap.IsReachable) (text : List Char) :
    gap.reachesEquals text = true ↔
      ∃ passed rest, text = passed ++ '=' :: rest ∧ gap.Accepts passed := by
  induction text generalizing gap with
  | nil => simp [reachesEquals]
  | cons c cs ih =>
      have hstep := ih (isReachable_step gap c)
      rw [reachesEquals, Bool.or_eq_true, Bool.and_eq_true, Bool.and_eq_true, beq_iff_eq, hstep]
      constructor
      · rintro (⟨houtside, rfl⟩ | ⟨_, passed, rest, rfl, haccepts⟩)
        · exact ⟨[], cs, rfl, gap.accepts_nil_iff.mpr houtside⟩
        · exact ⟨c :: passed, rest, rfl, (gap.accepts_step_iff c passed).mp haccepts⟩
      · rintro ⟨passed, rest, htext, haccepts⟩
        cases passed with
        | nil =>
            obtain ⟨rfl, rfl⟩ := List.cons.inj htext
            exact Or.inl ⟨gap.accepts_nil_iff.mp haccepts, rfl⟩
        | cons d more =>
            obtain ⟨rfl, rfl⟩ := List.cons.inj htext
            have hnext := (gap.accepts_step_iff c more).mpr haccepts
            refine Or.inr ⟨?_, more, rest, rfl, hnext⟩
            rw [Bool.not_eq_true', ← Bool.not_eq_true]
            intro hdead
            exact not_accepts_of_isDead (isReachable_step gap c) hdead more hnext

end Gap

/-- A text starts with an attribute of a breakpoint if its name, something that is passed over and an
equals sign come first. -/
theorem startsWith_iff (b : Breakpoint) (text : List Char) :
    startsWith b text = true ↔
      ∃ passed rest, text = b.name.toList ++ passed ++ '=' :: rest ∧ Passed passed := by
  have hlength : b.name.length = b.name.toList.length := rfl
  have hreachable : Gap.start.IsReachable := by simp [Gap.IsReachable, Gap.start]
  rw [startsWith, Bool.and_eq_true, Gap.reachesEquals_iff hreachable, hlength]
  simp only [Gap.accepts_start_iff, List.isPrefixOf_iff_prefix]
  constructor
  · rintro ⟨⟨tail, rfl⟩, passed, rest, htext, hpassed⟩
    rw [List.drop_left] at htext
    exact ⟨passed, rest, by rw [htext, List.append_assoc], hpassed⟩
  · rintro ⟨passed, rest, rfl, hpassed⟩
    rw [List.append_assoc]
    exact ⟨List.prefix_append _ _, passed, rest, List.drop_left, hpassed⟩

theorem search_iff (words : Text.WordClass) (fresh : Bool) (text : List Char) :
    search words fresh text = true ↔
      ∃ before : List Char, ∃ b : Breakpoint, ∃ passed rest,
        text = before ++ b.name.toList ++ passed ++ '=' :: rest ∧
        (before = [] → fresh = true) ∧ (∀ c ∈ before.getLast?, isBoundary words c = true) ∧
        Passed passed := by
  induction text generalizing fresh with
  | nil => simp [search]
  | cons c cs ih =>
      rw [search, Bool.or_eq_true, Bool.and_eq_true, List.any_eq_true, ih]
      constructor
      · rintro (⟨hfresh, b, _, hstarts⟩ | ⟨before, b, passed, rest, rfl, hnil, hlast, hpassed⟩)
        · obtain ⟨passed, rest, htext, hpassed⟩ := (startsWith_iff b (c :: cs)).mp hstarts
          exact ⟨[], b, passed, rest, htext, fun _ => hfresh, by simp, hpassed⟩
        · refine ⟨c :: before, b, passed, rest, rfl, by simp, ?_, hpassed⟩
          intro d hd
          cases before with
          | nil =>
              obtain rfl : c = d := by simpa using hd
              exact hnil rfl
          | cons e more => exact hlast d (by simpa using hd)
      · rintro ⟨before, b, passed, rest, htext, hnil, hlast, hpassed⟩
        cases before with
        | nil =>
            refine Or.inl ⟨hnil rfl, b, Breakpoint.mem_all b, ?_⟩
            exact (startsWith_iff b (c :: cs)).mpr ⟨passed, rest, htext, hpassed⟩
        | cons d more =>
            obtain ⟨rfl, rfl⟩ := List.cons.inj htext
            refine Or.inr ⟨more, b, passed, rest, rfl, ?_, ?_, hpassed⟩
            · rintro rfl
              exact hlast c (by simp)
            · intro e he
              cases more with
              | nil => simp at he
              | cons f others => exact hlast e (by simpa using he)

/-- The quick test sees exactly the texts in which, at their start or behind a character that cannot
stand before a name in a word, the name of a breakpoint stands and what is passed over leads from it
to an equals sign. -/
theorem hasResponsivePropsBy_iff (words : Text.WordClass) (text : String) :
    hasResponsivePropsBy words text = true ↔
      ∃ before : List Char, ∃ b : Breakpoint, ∃ passed rest,
        text.toList = before ++ b.name.toList ++ passed ++ '=' :: rest ∧
        (∀ c ∈ before.getLast?, isBoundary words c = true) ∧ Passed passed := by
  simp [hasResponsivePropsBy, search_iff]

section Spelled

theorem isBoundary_iff (words : Text.WordClass) (c : Char) :
    isBoundary words c = true ↔ words.contains c = false ∧ c ≠ '$' ∧ c ≠ '-' := by
  simp [isBoundary, and_assoc]

/-- The pieces as they are spelled. -/
theorem piece_toList_iff (piece : String) :
    Piece piece.toList ↔
      (∃ c, Text.isWhiteSpace c = true ∧ piece = String.singleton c) ∨
      (∃ comment : String, piece = "/*" ++ comment ++ "*/") ∨
      (∃ comment : String, '\n' ∉ comment.toList ∧ piece = "//" ++ comment ++ "\n") := by
  constructor
  · intro hpiece
    generalize hchars : piece.toList = chars at hpiece
    cases hpiece with
    | space c hspace =>
        exact Or.inl ⟨c, hspace, String.toList_inj.mp (by simp [hchars])⟩
    | block comment =>
        exact Or.inr (Or.inl ⟨String.ofList comment, String.toList_inj.mp (by simp [hchars])⟩)
    | line comment hline =>
        refine Or.inr (Or.inr ⟨String.ofList comment, ?_, String.toList_inj.mp (by simp [hchars])⟩)
        rwa [String.toList_ofList]
  · rintro (⟨c, hspace, rfl⟩ | ⟨comment, rfl⟩ | ⟨comment, hline, rfl⟩)
    · simpa using Piece.space c hspace
    · simpa using Piece.block comment.toList
    · simpa using Piece.line comment.toList hline

theorem passed_toList_iff (text : String) :
    Passed text.toList ↔
      ∃ pieces : List String, text = String.join pieces ∧ ∀ piece ∈ pieces, Piece piece.toList := by
  constructor
  · rintro ⟨pieces, hpieces, htext⟩
    refine ⟨pieces.map String.ofList, String.toList_inj.mp ?_, ?_⟩
    · rw [htext, String.toList_join, List.flatMap_map]
      simp [List.flatMap_id']
    · intro piece hpiece
      obtain ⟨chars, hchars, rfl⟩ := List.mem_map.mp hpiece
      rw [String.toList_ofList]
      exact hpieces chars hchars
  · rintro ⟨pieces, rfl, hpieces⟩
    refine ⟨pieces.map String.toList, ?_, ?_⟩
    · intro chars hchars
      obtain ⟨piece, hpiece, rfl⟩ := List.mem_map.mp hchars
      exact hpieces piece hpiece
    · rw [String.toList_join, List.flatMap_def]

/-- The texts that the quick test sees, spelled out: the name of a breakpoint stands at the start of the
text or behind what is neither a word character nor a dollar sign nor a hyphen, and blanks and comments
lead from it to an equals sign. There may be several ways to take a text apart, since a block comment
may hold what could end it; one that leads to the equals sign is enough. This is so whatever counts as a word
character. -/
theorem hasResponsivePropsBy_iff_exists_append (words : Text.WordClass) (text : String) :
    hasResponsivePropsBy words text = true ↔
      ∃ before name gap rest : String, text = before ++ name ++ gap ++ "=" ++ rest ∧
        name ∈ ["sm", "md", "lg", "xl", "xxl"] ∧
        (∀ c ∈ before.toList.getLast?, words.contains c = false ∧ c ≠ '$' ∧ c ≠ '-') ∧
        ∃ pieces : List String, gap = String.join pieces ∧ ∀ piece ∈ pieces,
          (∃ c, Text.isWhiteSpace c = true ∧ piece = String.singleton c) ∨
          (∃ comment : String, piece = "/*" ++ comment ++ "*/") ∨
          (∃ comment : String, '\n' ∉ comment.toList ∧ piece = "//" ++ comment ++ "\n") := by
  simp only [hasResponsivePropsBy_iff, isBoundary_iff, ← piece_toList_iff, ← passed_toList_iff]
  constructor
  · rintro ⟨before, b, passed, rest, htext, hlast, hpassed⟩
    refine ⟨String.ofList before, b.name, String.ofList passed, String.ofList rest, ?_, ?_, ?_, ?_⟩
    · apply String.toList_inj.mp
      simp [htext]
    · exact List.mem_map_of_mem b.mem_all
    · rwa [String.toList_ofList]
    · rwa [String.toList_ofList]
  · rintro ⟨before, name, gap, rest, rfl, hname, hlast, hpassed⟩
    obtain ⟨b, _, rfl⟩ : ∃ b ∈ Breakpoint.all, b.name = name := List.mem_map.mp hname
    exact ⟨before.toList, b, gap.toList, rest.toList, by simp, hlast, hpassed⟩

-- A comment may be read past its first end, but only pieces may follow its last one.
example : hasResponsiveProps "<b md/* a */ b */ = 1" = true := by decide

example : hasResponsiveProps "<b md/* a */ b = 1" = false := by decide

end Spelled

end BreakpointProps.Detector
