import BreakpointProps.Glob.Expansion

/-!
A relative pattern without wildcards stands for the path that it spells, if that can be followed.
-/

namespace BreakpointProps.Glob

/-- The pattern for a name and nothing else. -/
def literal (name : String) : Glob := ⟨name.toList.map .char⟩

/-- Has a text no wildcards? -/
def isPlain (text : List Char) : Bool := text.all fun c => c != '?' && c != '*' && c != '['

/-- Is the text a relative pattern without wildcards? -/
def isSpelling (text : String) : Bool :=
  isPlain text.toList && text.toList.head?.any (· != '/') && text.toList.getLast?.any (· != '/')

/-- The names in a pattern. -/
def names (text : String) : List String := (cut text.toList).map String.ofList

/-- The path that a pattern spells. -/
def spelled (text : String) : Path := (names text).foldl within ⟨"."⟩

/-- Can names be followed one after the other? -/
def leadsAlong (files : FileSystem) : Path → List String → Bool
  | _, [] => true
  | path, name :: rest =>
    (if name == "." || name == ".." then files.isDirectory path
      else files.isThere (within path name)) && leadsAlong files (within path name) rest

theorem tokensFrom_of_isPlain {text : List Char} (htext : isPlain text = true) (position : Nat)
    (before : Option Char) : tokensFrom position before text = .ok (text.map .char) := by
  induction text generalizing position before with
  | nil => simp [tokensFrom]
  | cons c rest ih =>
      rw [isPlain, List.all_cons, Bool.and_eq_true] at htext
      have hrest := ih htext.2
      rw [tokensFrom.eq_def]
      split <;> simp_all [bind, Except.bind, pure, Except.pure]

theorem ofText_of_isPlain {text : String} (htext : isPlain text.toList = true) :
    ofText text = .ok (literal text) := by
  rw [ofText, tokensFrom_of_isPlain htext]
  rfl

theorem mem_of_mem_segments {text segment : List Char} {c : Char} (hsegment : segment ∈ Path.segments text)
    (hc : c ∈ segment) : c ∈ text := by
  induction text generalizing segment with
  | nil => simp_all [Path.segments]
  | cons first rest ih =>
      rw [Path.segments] at hsegment
      split at hsegment
      · rcases List.mem_cons.mp hsegment with rfl | hrest
        · exact absurd hc (by simp)
        · exact List.mem_cons_of_mem first (ih hrest hc)
      · split at hsegment
        · obtain rfl := List.mem_singleton.mp hsegment
          obtain rfl := List.mem_singleton.mp hc
          exact List.mem_cons_self
        · rename_i head more hsegments
          rcases List.mem_cons.mp hsegment with rfl | hmore
          · rcases List.mem_cons.mp hc with rfl | hc
            · exact List.mem_cons_self
            · exact List.mem_cons_of_mem first (ih (hsegments ▸ List.mem_cons_self) hc)
          · exact List.mem_cons_of_mem first (ih (hsegments ▸ List.mem_cons_of_mem head hmore) hc)

theorem isPlain_of_mem_cut {text part : List Char} (htext : isPlain text = true)
    (hpart : part ∈ cut text) : isPlain part = true := by
  have hsegment : part ∈ Path.segments text := by
    unfold cut at hpart
    dsimp only at hpart
    split at hpart
    · exact List.dropLast_subset _ hpart
    · exact hpart
  rw [isPlain, List.all_eq_true] at htext ⊢
  exact fun c hc => htext c (mem_of_mem_segments hsegment hc)

/-- A relative pattern without wildcards is cut into names. -/
theorem partsOfText_of_isSpelling {text : String} (htext : isSpelling text = true) :
    Parts.ofText text = .ok ⟨⟨"."⟩, (names text).map literal, false⟩ := by
  rw [isSpelling, Bool.and_eq_true, Bool.and_eq_true] at htext
  obtain ⟨⟨hplain, hfirst⟩, hlast⟩ := htext
  have hnames : ∀ parts : List (List Char), (∀ part ∈ parts, isPlain part = true) →
      parts.mapM (fun part => ofText (String.ofList part)) =
        .ok ((parts.map String.ofList).map literal) := by
    intro parts hparts
    induction parts with
    | nil => rfl
    | cons part rest ih =>
        have hpart : ofText (String.ofList part) = .ok (literal (String.ofList part)) :=
          ofText_of_isPlain (by simpa using hparts part List.mem_cons_self)
        rw [List.mapM_cons, hpart, ih fun p hp => hparts p (List.mem_cons_of_mem part hp)]
        rfl
  have habsolute : (Path.mk text).isAbsolute = false := by
    unfold Path.isAbsolute
    cases htext : text.toList.head? <;> simp_all
  have hempty : text.toList.isEmpty = false := by
    cases htext : text.toList <;> simp_all
  have hslash : (text.toList.getLast? == some '/') = false := by
    cases htext : text.toList.getLast? <;> simp_all
  unfold Parts.ofText
  simp only [ofText_of_isPlain hplain, habsolute, hempty, hslash, bind, Except.bind, pure, Except.pure,
    Bool.false_eq_true, if_false, hnames _ fun part hpart => isPlain_of_mem_cut hplain hpart, names]

theorem literal?_literal (name : String) : (literal name).literal? = some name := by
  have hchars : ∀ (char? : Token → Option Char), (∀ c, char? (.char c) = some c) →
      ∀ chars : List Char, (chars.map Token.char).mapM char? = some chars := by
    intro char? hchar chars
    induction chars with
    | nil => rfl
    | cons c rest ih => simp [List.mapM_cons, hchar, ih]
  unfold literal? literal
  dsimp only
  rw [hchars _ (by intro c; rfl), Option.map_some, String.ofList_toList]

section Below

variable {files : FileSystem} {list : Listing} {directoriesOnly : Bool} {depth : Nat} {path : Path}

/-- Names are followed first. -/
theorem below_literals {names : List String} (hleads : leadsAlong files path names = true)
    (globs : List Glob) :
    below files list directoriesOnly depth (names.map literal ++ globs) path =
      below files list directoriesOnly depth globs (names.foldl within path) := by
  induction names generalizing path with
  | nil => rfl
  | cons name rest ih =>
      rw [leadsAlong, Bool.and_eq_true] at hleads
      rw [List.map_cons, List.cons_append, below.eq_def]
      simp only [literal?_literal, hleads.1, if_true]
      exact ih hleads.2

theorem below_literal {names : List String} (hleads : leadsAlong files path names = true) :
    below files list false depth (names.map literal) path = [.ok (names.foldl within path)] := by
  rw [← List.append_nil (names.map literal), below_literals hleads, below.eq_def]
  rfl

/-- Of a directory that is closed to readers, all that is found is that it is. -/
theorem below_of_list_error {glob : Glob} (hglob : glob.literal? = none)
    (hdirectory : files.isDirectory path = true) {fault : FileSystem.Fault}
    (hlist : list path = .error fault) (rest : List Glob) :
    below files list directoriesOnly depth (glob :: rest) path = [.error ⟨path, fault⟩] := by
  rw [below.eq_def]
  simp only [hglob, hdirectory, hlist, if_true]

end Below

/-- A relative pattern without wildcards stands for the path that it spells if that can be followed. No
directory is listed for it. -/
theorem expand_of_isSpelling {files : FileSystem} {text : String}
    (list : FileSystem → Listing) (htext : isSpelling text = true)
    (hleads : leadsAlong files ⟨"."⟩ (names text) = true) :
    (Engine.through list).expand files text = .ok [.ok (spelled text)] := by
  show (Parts.ofText text).map (fun parts => parts.expand files (list files)) = _
  rw [partsOfText_of_isSpelling htext]
  exact congrArg Except.ok (below_literal hleads)

/-- A pattern with a wildcard behind names that lead to a directory that is closed to readers. -/
theorem expand_of_list_error {files : FileSystem} {list : FileSystem → Listing} {text : String}
    {start : Path} {names : List String} {glob : Glob} {rest : List Glob} {directoriesOnly : Bool}
    (hparts : (Parts.ofText text).toOption = some ⟨start, names.map literal ++ glob :: rest, directoriesOnly⟩)
    (hleads : leadsAlong files start names = true) (hglob : glob.literal? = none)
    (hdirectory : files.isDirectory (names.foldl within start) = true) {fault : FileSystem.Fault}
    (hlist : list files (names.foldl within start) = .error fault) :
    (Engine.through list).expand files text = .ok [.error ⟨names.foldl within start, fault⟩] := by
  show (Parts.ofText text).map (fun parts => parts.expand files (list files)) = _
  cases hread : Parts.ofText text with
  | error flaw => simp [hread, Except.toOption] at hparts
  | ok parts =>
      rw [hread] at hparts
      obtain rfl := Option.some.inj hparts
      exact congrArg Except.ok ((below_literals hleads _).trans (below_of_list_error hglob hdirectory hlist rest))

end BreakpointProps.Glob
