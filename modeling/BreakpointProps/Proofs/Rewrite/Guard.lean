import BreakpointProps.Proofs.Detector
import BreakpointProps.Proofs.Rewrite.Tally
import BreakpointProps.Proofs.Script.Filler
import BreakpointProps.Rewrite.Module

/-!
The quick test that guards the hook, against what a script may have between the name of an attribute
and its equals sign. The test passes over everything that may stand there except for the byte order
mark, comments whose line does not end with a line feed, and the lines that are passed as comments
though they are none.
-/

namespace BreakpointProps

/-- Does the quick test pass over the filler? -/
def Script.Filler.isPassed : Filler → Bool
  | space c => c != '\ufeff'
  | blockComment _ => true
  | lineComment _ stop => stop.endsWithFeed
  | foreignLine _ _ _ => false

namespace Rewrite

open Script
open Detector (Passed)

variable {words : Text.WordClass}

theorem passed_singleton_iff (c : Char) : Passed [c] ↔ Text.isWhiteSpace c = true := by
  simp [Detector.passed_cons_iff, Detector.passed_nil]

theorem not_passed_of_head {c : Char} (hspace : Text.isWhiteSpace c = false) (hslash : c ≠ '/')
    (text : List Char) : ¬ Passed (c :: text) := by
  simp [Detector.passed_cons_iff, hspace, hslash]

theorem not_passed_foreignMark {mark : List Char} (hmark : mark ∈ Filler.foreignMarks)
    (text : List Char) : ¬ Passed (mark ++ text) := by
  simp only [Filler.foreignMarks, List.mem_cons, List.not_mem_nil, or_false] at hmark
  rcases hmark with rfl | rfl | rfl | rfl | rfl <;>
    exact not_passed_of_head (by decide) (by decide) _

theorem not_mem_of_isLineEnd {text : List Char} (hline : ∀ c ∈ text, isLineEnd c = false) :
    '\n' ∉ text := by
  intro hmem
  exact absurd (hline _ hmem) (by decide)

/-- A comment to the end of the line is passed over if its line ends with a line feed. -/
theorem passed_lineComment_iff {text : List Char} (hline : ∀ c ∈ text, isLineEnd c = false)
    (stop : LineStop) :
    Passed ('/' :: '/' :: text ++ stop.text) ↔ stop.endsWithFeed = true := by
  have hfeed := not_mem_of_isLineEnd hline
  cases hends : stop.endsWithFeed with
  | true =>
      have hstop : ∃ before, '\n' ∉ before ∧ stop.text = before ++ ['\n'] := by
        cases stop with
        | feed => exact ⟨[], by simp, rfl⟩
        | returnFeed => exact ⟨['\r'], by decide, rfl⟩
        | _ => exact absurd hends (by decide)
      obtain ⟨before, hbefore, hstop⟩ := hstop
      have hcomment : '\n' ∉ text ++ before := by simp [hfeed, hbefore]
      simpa [hstop] using (Detector.Piece.line _ hcomment).passed
  | false =>
      have hstop : '\n' ∉ stop.text := by
        cases stop with
        | feed => exact absurd hends (by decide)
        | returnFeed => exact absurd hends (by decide)
        | _ => decide
      simp only [Bool.false_eq_true, iff_false]
      intro hpassed
      rw [List.cons_append, List.cons_append, Detector.passed_cons_iff] at hpassed
      rcases hpassed with ⟨hspace, _⟩ | ⟨_, rest, hrest, _⟩ | ⟨_, rest, hrest, comment, after, _, hafter, _⟩
      · exact absurd hspace (by decide)
      · exact absurd (List.cons.inj hrest).1 (by decide)
      · have hmem : '\n' ∈ text ++ stop.text := by
          rw [(List.cons.inj hrest).2, hafter]
          simp
        rcases List.mem_append.mp hmem with htext | hend
        · exact hfeed htext
        · exact hstop hend

/-- The quick test passes over a filler exactly if it is neither the byte order mark nor a comment whose
line does not end with a line feed nor a foreign line. -/
theorem passed_text_iff {filler : Filler} (hproper : filler.IsProper) :
    Passed filler.text ↔ filler.isPassed = true := by
  cases filler with
  | space c =>
      rw [Filler.text, Filler.isPassed, passed_singleton_iff, bne_iff_ne]
      rcases hproper with hspace | rfl
      · refine iff_of_true hspace ?_
        rintro rfl
        exact absurd hspace (by decide)
      · decide
  | blockComment text =>
      simpa [Filler.isPassed, Filler.text] using (Detector.Piece.block text).passed
  | lineComment text stop => exact passed_lineComment_iff hproper stop
  | foreignLine mark text stop =>
      simpa [Filler.isPassed, Filler.text] using not_passed_foreignMark hproper.1 (text ++ stop.text)

/-- What may stand directly before the name of an attribute: a blank, the end of a line or of a comment,
or the end of a value, of spread attributes or of type arguments. -/
def mayPrecede (c : Char) : Bool :=
  Text.isWhiteSpace c || ['\ufeff', '"', '\'', '\x7d', '>', '/'].contains c

/-- A name behind such a character starts a word. -/
theorem isBoundary_of_mayPrecede {c : Char} (hprecedes : mayPrecede c = true) :
    Detector.isBoundary words c = true := by
  rw [Detector.isBoundary_iff]
  rw [mayPrecede, Bool.or_eq_true] at hprecedes
  rcases hprecedes with hspace | hmark
  · refine ⟨words.not_contains_blank c (Or.inl hspace), ?_, ?_⟩ <;>
      (rintro rfl; exact absurd hspace (by decide))
  · simp only [List.contains_cons, List.contains_nil, Bool.or_eq_true, beq_iff_eq, Bool.or_false] at hmark
    rcases hmark with rfl | hmark
    · exact ⟨words.not_contains_blank _ (Or.inr rfl), by decide, by decide⟩
    · have hlow : c.toNat < 128 := by rcases hmark with rfl | rfl | rfl | rfl | rfl <;> decide
      rw [words.contains_ascii c hlow]
      rcases hmark with rfl | rfl | rfl | rfl | rfl <;> decide

/-- An attribute with a value as it stands in a source, up to the equals sign. -/
structure Place where
  before : List Char
  name : String
  /-- The name as it is written. -/
  spelling : List Char
  gap : List Filler
  rest : List Char

namespace Place

/-- The whole source. -/
def text (place : Place) : List Char :=
  place.before ++ place.spelling ++ place.gap.flatMap Filler.text ++ '=' :: place.rest

/-- Is this how the grammar has attributes written? A name may hold escapes. -/
structure IsWritten (place : Place) : Prop where
  before : ∀ c ∈ place.before.getLast?, mayPrecede c = true
  spelling : place.spelling = place.name.toList ∨ '\\' ∈ place.spelling
  gap : ∀ filler ∈ place.gap, filler.IsProper

/-- The name is written without escapes, and the quick test passes over all that stands between it and
the equals sign. -/
structure IsPlain (place : Place) : Prop where
  spelling : place.spelling = place.name.toList
  gap : ∀ filler ∈ place.gap, filler.isPassed = true

end Place

/-- The attribute of a breakpoint stands like this in a source, which may start with a byte order mark. -/
structure Place.Shows (place : Place) (source : String) : Prop where
  isWritten : place.IsWritten
  name : ∃ b : Breakpoint, place.name = b.name
  text : place.text = (withoutMark source).toList

/-- The source starts with nothing but a byte order mark before what is read of it. -/
theorem exists_mark (source : String) :
    ∃ mark, source.toList = mark ++ (withoutMark source).toList ∧ (mark = [] ∨ mark = ['\ufeff']) := by
  unfold withoutMark
  split
  · rename_i rest hsource
    exact ⟨['\ufeff'], by simp [hsource], Or.inr rfl⟩
  · exact ⟨[], rfl, Or.inl rfl⟩

theorem passed_flatMap_text {gap : List Filler} (hgap : ∀ filler ∈ gap, Passed filler.text) :
    Passed (gap.flatMap Filler.text) := by
  induction gap with
  | nil => exact Detector.passed_nil
  | cons filler more ih =>
      rw [List.flatMap_cons]
      apply (hgap filler List.mem_cons_self).append
      apply ih
      intro other hother
      exact hgap other (List.mem_cons_of_mem _ hother)

/-- The quick test sees an attribute of a breakpoint that is written plainly. -/
theorem hasResponsivePropsBy_of_isPlain {place : Place} {source : String} (hshows : place.Shows source)
    (hplain : place.IsPlain) : Detector.hasResponsivePropsBy words source = true := by
  obtain ⟨hwritten, ⟨b, hname⟩, hsource⟩ := hshows
  obtain ⟨mark, hmark, hcases⟩ := exists_mark source
  have hpassed : Passed (place.gap.flatMap Filler.text) := by
    apply passed_flatMap_text
    intro filler hfiller
    exact (passed_text_iff (hwritten.gap filler hfiller)).mpr (hplain.gap filler hfiller)
  rw [Detector.hasResponsivePropsBy_iff]
  refine ⟨mark ++ place.before, b, place.gap.flatMap Filler.text, place.rest, ?_, ?_, hpassed⟩
  · rw [hmark, ← hsource, Place.text, hplain.spelling, hname]
    simp
  · intro c hc
    cases hbefore : place.before.getLast? with
    | some d =>
        rw [List.getLast?_append, hbefore] at hc
        obtain rfl : d = c := by simpa using hc
        exact isBoundary_of_mayPrecede (hwritten.before d hbefore)
    | none =>
        rw [List.getLast?_append, hbefore] at hc
        rcases hcases with rfl | rfl
        · simp at hc
        · obtain rfl : '\ufeff' = c := by simpa using hc
          exact isBoundary_of_mayPrecede (by decide)

/-- The plain name of an attribute that has a value. -/
def valuedName? : Node → Option String
  | .mk .attribute _ [.mk (.name name) _ _, value] => if value.isAbsent then none else some name
  | _ => none

/-- A reader of scripts keeps to the grammar of attributes: one that has a value stands in the source
with its name, with nothing but filler behind the name, and then with an equals sign. For the reader here
`exists_place_of_tagAttribute` says so of each attribute that it comes to. -/
def KeepsGrammar (read : Reader) : Prop :=
  ∀ dialect source reading, read dialect source = .ok reading →
    ∀ attributes ∈ tagAttributes reading.tree, ∀ a ∈ attributes, ∀ name,
      valuedName? a = some name →
        ∃ place : Place, place.name = name ∧ place.IsWritten ∧ place.text = source.toList

/-- A breakpoint whose class list is known has a value. -/
theorem valuedName?_of_role {a : Node} {b : Breakpoint} {classes : String}
    (hrole : Role.of a = .staticBreakpoint b classes) : valuedName? a = some b.name := by
  unfold Role.of at hrole
  split at hrole
  · rename_i span name place parts value
    split at hrole
    · cases hstatic : staticValue? value <;> simp [hstatic] at hrole
    · cases hname : Breakpoint.ofName? name with
      | none => simp [hname] at hrole
      | some c =>
          cases hstatic : staticValue? value with
          | none => simp [hname, hstatic] at hrole
          | some text =>
              obtain rfl : c = b := by
                have hboth : c = b ∧ text = classes := by simpa [hname, hstatic] using hrole
                exact hboth.1
              have hvalue : value.isAbsent = false := by
                obtain ⟨label, inner, more⟩ := value
                cases label <;> first | rfl | simp [staticValue?] at hstatic
              simp [valuedName?, hvalue, Breakpoint.name_of_ofName? hname]
  · exact absurd hrole (by simp)

section Hook

variable {read : Reader} {config : Config} {id source : String} {output : Output}

/-- Where something is rewritten an attribute of a breakpoint has a value. -/
theorem exists_valuedName? (houtput : (rewriteSourceWith read config id source).result = .ok (some output)) :
    ∃ reading, read (ModuleId.dialect id) (withoutMark source) = .ok reading ∧
      ∃ attributes ∈ tagAttributes reading.tree, ∃ a ∈ attributes, ∃ b : Breakpoint,
        valuedName? a = some b.name := by
  unfold rewriteSourceWith at houtput
  cases hread : read (ModuleId.dialect id) (withoutMark source) with
  | error refusal => simp [hread] at houtput
  | ok reading =>
      refine ⟨reading, rfl, ?_⟩
      have hpositive : (rewriteNode id reading.tree).2.elements ≠ 0 := by
        intro hzero
        simp [hread, hzero] at houtput
      rw [elements_rewriteNode, ← Nat.pos_iff_ne_zero, List.countP_pos_iff] at hpositive
      obtain ⟨attributes, hattributes, hrewritten⟩ := hpositive
      obtain ⟨a, ha, hstatic⟩ := ((isRewritten_iff attributes).mp hrewritten).1
      refine ⟨attributes, hattributes, a, ha, ?_⟩
      cases hrole : Role.of a with
      | staticBreakpoint b classes => exact ⟨b, valuedName?_of_role hrole⟩
      | _ => rw [hrole] at hstatic; exact absurd hstatic Bool.false_ne_true

/-- The hook puts out what rewriting does where the quick test hits. -/
theorem hookWith_eq_some_iff (hsupported : ModuleId.isSupported config id = true) :
    (hookWith words read config id source).result = some output ↔
      Detector.hasResponsivePropsBy words source = true ∧
        (rewriteSourceWith read config id source).result = .ok (some output) := by
  unfold hookWith
  cases htest : Detector.hasResponsivePropsBy words source with
  | false => simp
  | true =>
      simp only [hsupported, Bool.not_true, Bool.or_self, Bool.false_eq_true, ↓reduceIte, true_and]
      split
      · rename_i failure hfailure
        simp [hfailure]
      · rename_i hnone
        simp [hnone]
      · rename_i found hfound
        simp [hfound]

/-- The hook agrees with rewriting on exactly those sources of which nothing is rewritten or in which
the quick test sees the name of a breakpoint with an equals sign behind it. Wherever something is
rewritten, an attribute of a breakpoint stands in the source, and it is enough that one that stands
there is written plainly: its name without escapes, and no byte order mark, no comment whose line does
not end with a line feed and no foreign line between the name and the equals sign. -/
theorem hookWith_agrees (words : Text.WordClass) (source : String) (hread : KeepsGrammar read)
    (hsupported : ModuleId.isSupported config id = true) :
    ((∀ output, (hookWith words read config id source).result = some output ↔
        (rewriteSourceWith read config id source).result = .ok (some output)) ↔
      ((∃ output, (rewriteSourceWith read config id source).result = .ok (some output)) →
        ∃ before : List Char, ∃ b : Breakpoint, ∃ passed rest,
          source.toList = before ++ b.name.toList ++ passed ++ '=' :: rest ∧
          (∀ c ∈ before.getLast?, Detector.isBoundary words c = true) ∧ Passed passed)) ∧
    ∀ output, (rewriteSourceWith read config id source).result = .ok (some output) →
      (∃ place : Place, place.Shows source) ∧
        ∀ place : Place, place.Shows source → place.IsPlain →
          (hookWith words read config id source).result = some output := by
  constructor
  · rw [← Detector.hasResponsivePropsBy_iff]
    constructor
    · rintro hagrees ⟨output, houtput⟩
      exact ((hookWith_eq_some_iff hsupported).mp ((hagrees output).mpr houtput)).1
    · intro hsees output
      rw [hookWith_eq_some_iff hsupported]
      constructor
      · intro hboth
        exact hboth.2
      · intro houtput
        exact ⟨hsees ⟨output, houtput⟩, houtput⟩
  · intro output houtput
    obtain ⟨reading, hreading, attributes, hattributes, a, ha, b, hname⟩ := exists_valuedName? houtput
    obtain ⟨place, hplace, hwritten, htext⟩ := hread _ _ _ hreading attributes hattributes a ha _ hname
    constructor
    · exact ⟨place, hwritten, ⟨b, hplace⟩, htext⟩
    · intro other hshows hplain
      rw [hookWith_eq_some_iff hsupported]
      exact ⟨hasResponsivePropsBy_of_isPlain hshows hplain, houtput⟩

end Hook

theorem eq_ok_of_toOption {ε α : Type} {outcome : Except ε α} {value : α}
    (hvalue : outcome.toOption = some value) : outcome = .ok value := by
  cases outcome with
  | error failure => simp [Except.toOption] at hvalue
  | ok found => rw [Option.some.inj hvalue]

/-- A link with a comment behind the name of a breakpoint. -/
def commentedLink : String := "<a md /* wide */\n='x'/>"

/-- The reader of scripts for this link alone. -/
def readCommentedLink : Reader := fun dialect source =>
  if dialect = ⟨true, false⟩ ∧ source = commentedLink then Script.read dialect source
  else .error .breakdown

/-- How the attribute of the link is written. -/
def commentedPlace : Place where
  before := "<a ".toList
  name := "md"
  spelling := "md".toList
  gap := [.space ' ', .blockComment " wide ".toList, .space '\n']
  rest := "'x'/>".toList

theorem keepsGrammar_readCommentedLink : KeepsGrammar readCommentedLink := by
  intro dialect source reading hread attributes hattributes a ha name hname
  unfold readCommentedLink at hread
  split at hread
  · rename_i hlink
    obtain ⟨rfl, rfl⟩ := hlink
    have hnames : ((Script.read ⟨true, false⟩ commentedLink).toOption.map fun reading =>
        (tagAttributes reading.tree).flatten.filterMap valuedName?) = some ["md"] := by
      decide +kernel
    have hmem : name ∈ (tagAttributes reading.tree).flatten.filterMap valuedName? :=
      List.mem_filterMap.mpr ⟨a, List.mem_flatten.mpr ⟨attributes, hattributes, ha⟩, hname⟩
    rw [hread] at hnames
    have hlist : (tagAttributes reading.tree).flatten.filterMap valuedName? = ["md"] :=
      Option.some.inj hnames
    rw [hlist, List.mem_singleton] at hmem
    refine ⟨commentedPlace, hmem.symm, ⟨?_, Or.inl rfl, ?_⟩, by decide +kernel⟩
    · intro c hc
      obtain rfl : ' ' = c := Option.some.inj hc
      decide
    · intro filler hfiller
      simp only [commentedPlace, List.mem_cons, List.not_mem_nil, or_false] at hfiller
      rcases hfiller with rfl | rfl | rfl
      · exact Or.inl (by decide)
      · show ¬ ['*', '/'] <:+: " wide ".toList
        decide +kernel
      · exact Or.inl (by decide)
  · exact absurd hread (by simp)

theorem hookWith_agrees_commentedLink :
    let config : Config := { extensions := ["jsx"], sourceMaps := false, mode := .production }
    let output : Output := ⟨"<a className=\"md:x\"/>;\n", none, 1⟩
    (rewriteSourceWith readCommentedLink config "a.jsx" commentedLink).result = .ok (some output) ∧
      (hookWith Text.words readCommentedLink config "a.jsx" commentedLink).result = some output := by
  intro config output
  have houtput : (rewriteSourceWith readCommentedLink config "a.jsx" commentedLink).result =
      .ok (some output) := by
    apply eq_ok_of_toOption
    decide +kernel
  have hsupported : ModuleId.isSupported config "a.jsx" = true := by decide +kernel
  have hagrees := (hookWith_agrees Text.words commentedLink keepsGrammar_readCommentedLink hsupported).1
  refine ⟨houtput, (hagrees.mpr ?_ output).mpr houtput⟩
  intro _
  refine ⟨"<a ".toList, .md, " /* wide */\n".toList, "'x'/>".toList, by decide +kernel, ?_, ?_⟩
  · intro c hc
    obtain rfl : ' ' = c := Option.some.inj hc
    decide
  exact (Detector.Piece.space ' ' (by decide)).passed.append
    ((Detector.Piece.block " wide ".toList).passed.append
      (Detector.Piece.space '\n' (by decide)).passed)

end Rewrite

end BreakpointProps
