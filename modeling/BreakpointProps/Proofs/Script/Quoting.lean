import BreakpointProps.Proofs.Script.Escaping
import BreakpointProps.Script.Printer.Quoting

/-!
What stands between the quotes of a string that has no spelling of its own, and what a reader of strings
makes of it. It makes the string of it again, unless the string holds a backslash in front of what
names a surrogate in braces that are not closed.
-/

namespace BreakpointProps.Script

namespace Quoting

/-- A character that is spelled out with its number, though it is no control. -/
def isSpelledOut (c : Char) : Bool := c == '\u2028' || c == '\u2029' || c == '\ufeff'

/-- A character that is written as it is between quotes. -/
def isPlain (quote c : Char) : Bool :=
  c != quote && c != '\\' && (0x20 ≤ c.toNat || c == '\t') && !isSpelledOut c

/-- If what stands behind a backslash names a surrogate in braces, are these closed right behind the
digits? -/
def closesSurrogate : List Char → Bool
  | 'u' :: '{' :: digits => !namesSurrogate ('u' :: '{' :: digits) || digits[4]? == some '}'
  | _ => true

/-- Are the braces closed wherever a text holds a backslash in front of what names a surrogate in
braces? -/
def closesSurrogates : List Char → Bool
  | [] => true
  | c :: rest => (c != '\\' || closesSurrogate rest) && closesSurrogates rest

/-- The text between the quotes of a string is read as a value; `after` follows the closing quote. -/
inductive Spells (quote : Char) (after : List Char) : List Char → List Char → Prop where
  | nil : Spells quote after [] []
  | plain {c : Char} {body value : List Char} (hquote : c ≠ quote) (hback : c ≠ '\\')
      (hfeed : c ≠ '\n') (hreturn : c ≠ '\r') (hrest : Spells quote after body value) :
      Spells quote after (c :: body) (c :: value)
  | escape (taken cs : List Char) {body value : List Char}
      (hread : Escape.read false (taken ++ (body ++ quote :: after)) = ⟨.ok cs, taken.length, []⟩)
      (hrest : Spells quote after body value) :
      Spells quote after ('\\' :: (taken ++ body)) (cs ++ value)

theorem hexValue?_eq_digitValue? (c : Char) : hexValue? c = Decimal.digitValue? 16 c := by
  have hdigit : c.isDigit = ('0' ≤ c && c ≤ '9' : Bool) := rfl
  rw [Decimal.digitValue?, hexValue?, hdigit]
  simp only [Char.le_def, UInt32.le_iff_toNat_le, Bool.and_eq_true, decide_eq_true_eq]
  split
  · rename_i hrange
    change 48 ≤ c.toNat ∧ c.toNat ≤ 57 at hrange
    rw [Option.filter_some, if_pos (by simp; omega)]
    rfl
  · split
    · rename_i hrange
      change 97 ≤ c.toNat ∧ c.toNat ≤ 102 at hrange
      rw [Option.filter_some, if_pos (by simp; omega)]
      change some (c.toNat - 97 + 10) = _
      congr 1
      omega
    · split
      · rename_i hrange
        change 65 ≤ c.toNat ∧ c.toNat ≤ 70 at hrange
        rw [Option.filter_some, if_pos (by simp; omega)]
        change some (c.toNat - 65 + 10) = _
        congr 1
        omega
      · rfl

section Escaped

variable {quote : Char}

theorem escaped_of_isPlain {c : Char} (hplain : isPlain quote c = true) (rest : List Char) :
    escaped quote c rest = [c] := by
  simp only [isPlain, isSpelledOut, Bool.and_eq_true, bne_iff_ne, Bool.or_eq_true, decide_eq_true_eq,
    beq_iff_eq, Bool.not_eq_true', Bool.or_eq_false_iff, beq_eq_false_iff_ne] at hplain
  obtain ⟨⟨⟨hquote, hback⟩, hlow⟩, ⟨hline, hparagraph⟩, hmark⟩ := hplain
  unfold escaped
  rw [if_neg (by simp [hquote, hback])]
  split <;> first | rfl | contradiction | skip
  case h_11 htab _ _ _ =>
    rw [if_neg (Nat.not_lt.mpr (hlow.resolve_right htab))]

theorem escapedChars_append {plain : List Char} (hplain : ∀ c ∈ plain, isPlain quote c = true)
    (rest : List Char) : escapedChars quote (plain ++ rest) = plain ++ escapedChars quote rest := by
  induction plain with
  | nil => rfl
  | cons c cs ih =>
      rw [List.cons_append, escapedChars, escaped_of_isPlain (hplain c List.mem_cons_self),
        ih fun d hd => hplain d (List.mem_cons_of_mem _ hd)]
      rfl

/-- What is written for a character starts with a backslash or with the character itself. -/
theorem head?_escaped (quote c : Char) (rest : List Char) :
    (escaped quote c rest).head? = some '\\' ∨ (escaped quote c rest).head? = some c := by
  unfold escaped
  split
  · exact Or.inl rfl
  · split <;> first | exact Or.inl rfl | exact Or.inr rfl | skip
    · split <;> exact Or.inl rfl
    · split
      · exact Or.inl rfl
      · exact Or.inr rfl

theorem digitValue?_eight_of_not_isDigit {c : Char} (hdigit : c.isDigit = false) :
    Decimal.digitValue? 8 c = none := by
  rw [Option.eq_none_iff_forall_ne_some]
  intro v hv
  simp only [Decimal.digitValue?, hdigit, Bool.false_eq_true, ↓reduceIte, Char.le_def,
    UInt32.le_iff_toNat_le, Bool.and_eq_true, decide_eq_true_eq, Option.filter_eq_some_iff] at hv
  obtain ⟨hletter, hsmall⟩ := hv
  split at hletter
  · rename_i hlower
    change 97 ≤ c.toNat ∧ c.toNat ≤ 102 at hlower
    have hv := Option.some.inj hletter
    omega
  · split at hletter
    · rename_i hupper
      change 65 ≤ c.toNat ∧ c.toNat ≤ 70 at hupper
      have hv := Option.some.inj hletter
      omega
    · exact absurd hletter (by simp)

/-- No octal digit follows the characters that stand in front of a character that is no digit. -/
theorem digitValue?_head?_escapedChars (hquote : quote = '"' ∨ quote = '\'') {rest : List Char}
    (hdigit : rest.head?.any Char.isDigit = false) (after : List Char) :
    (escapedChars quote rest ++ quote :: after).head?.bind (Decimal.digitValue? 8) = none := by
  cases rest with
  | nil => rcases hquote with rfl | rfl <;> rfl
  | cons c cs =>
      have hc : c.isDigit = false := by simpa using hdigit
      rw [escapedChars, List.append_assoc, List.head?_append]
      rcases head?_escaped quote c cs with hhead | hhead <;> rw [hhead]
      · rfl
      · exact digitValue?_eight_of_not_isDigit hc

/-- What is written for a character whose escape says which character it is. -/
theorem Spells.escape_one {c : Char} (taken : List Char) {body after value : List Char}
    (hread : Escape.read false (taken ++ (body ++ quote :: after)) = ⟨.ok [c], taken.length, []⟩)
    (hrest : Spells quote after body value) :
    Spells quote after ('\\' :: (taken ++ body)) (c :: value) := .escape taken [c] hread hrest

/-- A digit of the number of a control character. -/
theorem digitValue?_hexDigit : ∀ n < 16, Decimal.digitValue? 16 (hexDigit n) = some n := by
  decide

/-- What is written for one character is read as that character, unless it is a backslash in front of
what names a surrogate. -/
theorem Spells.escaped (hquote : quote = '"' ∨ quote = '\'') {c : Char} {rest after value : List Char}
    (hname : c = '\\' → namesSurrogate rest = false)
    (hrest : Spells quote after (escapedChars quote rest) value) :
    Spells quote after (escaped quote c rest ++ escapedChars quote rest) (c :: value) := by
  unfold Quoting.escaped
  split
  · rename_i hescape
    apply Spells.escape_one [c] _ hrest
    have hc : c = quote ∨ c = '\\' := by
      simp only [Bool.or_eq_true, beq_iff_eq, Bool.and_eq_true] at hescape
      exact hescape.imp_right And.left
    rcases hc with rfl | rfl
    · rcases hquote with rfl | rfl <;> rfl
    · rfl
  · rename_i hno
    split
    · split
      · exact .escape_one ['x', '0', '0'] (Escape.read_hex (v := 0) (w := 0) rfl rfl (by decide) _) hrest
      · rename_i hdigit
        have hnext := digitValue?_head?_escapedChars hquote (Bool.not_eq_true _ ▸ hdigit) after
        apply Spells.escape_one ['0'] _ hrest
        change Escape.octal false '0' (escapedChars quote rest ++ quote :: after) = _
        unfold Escape.octal
        rw [hnext]
        rfl
    · exact .escape_one ['b'] rfl hrest
    · exact .escape_one ['f'] rfl hrest
    · exact .escape_one ['n'] rfl hrest
    · exact .escape_one ['r'] rfl hrest
    · exact .escape_one ['v'] rfl hrest
    · have hne : '\t' ≠ quote := by rcases hquote with rfl | rfl <;> decide
      exact hrest.plain hne (by decide) (by decide) (by decide)
    · have hread := Escape.read_four ['2', '0', '2', '8'] rfl rfl (by decide)
      exact .escape_one ['u', '2', '0', '2', '8'] (hread _) hrest
    · have hread := Escape.read_four ['2', '0', '2', '9'] rfl rfl (by decide)
      exact .escape_one ['u', '2', '0', '2', '9'] (hread _) hrest
    · have hread := Escape.read_four ['F', 'E', 'F', 'F'] rfl rfl (by decide)
      exact .escape_one ['u', 'F', 'E', 'F', 'F'] (hread _) hrest
    · rename_i hfeed hreturn _ _ _ _ _
      split
      · rename_i hlow
        apply Spells.escape_one ['x', hexDigit (c.toNat / 16), hexDigit (c.toNat % 16)] _ hrest
        have hnumber : c.toNat / 16 * 16 + c.toNat % 16 = c.toNat := by omega
        have hread := Escape.read_hex (digitValue?_hexDigit (c.toNat / 16) (by omega))
          (digitValue?_hexDigit (c.toNat % 16) (by omega)) (by omega)
          (escapedChars quote rest ++ quote :: after)
        rwa [hnumber, Char.ofNat_toNat] at hread
      · simp only [Bool.or_eq_true, beq_iff_eq, Bool.and_eq_true, Bool.not_eq_true', not_or] at hno
        have hback : c ≠ '\\' := fun hback => hno.2 ⟨hback, hname hback⟩
        exact hrest.plain hno.1 hback hfeed hreturn

/-- A digit is written as it is. -/
theorem isPlain_of_digit (hquote : quote = '"' ∨ quote = '\'') {c : Char}
    (hdigit : (Decimal.digitValue? 16 c).isSome) : isPlain quote c = true := by
  have hrange : 48 ≤ c.toNat ∧ c.toNat ≤ 102 ∧ c.toNat ≠ 92 := by
    rw [← hexValue?_eq_digitValue?, hexValue?] at hdigit
    simp only [Char.le_def, UInt32.le_iff_toNat_le, Bool.and_eq_true, decide_eq_true_eq] at hdigit
    split at hdigit
    · rename_i hdecimal
      change 48 ≤ c.toNat ∧ c.toNat ≤ 57 at hdecimal
      omega
    · split at hdigit
      · rename_i hlower
        change 97 ≤ c.toNat ∧ c.toNat ≤ 102 at hlower
        omega
      · split at hdigit
        · rename_i hupper
          change 65 ≤ c.toNat ∧ c.toNat ≤ 70 at hupper
          omega
        · exact absurd hdigit (by simp)
  obtain ⟨hlow, hhigh, hback⟩ := hrange
  have hne : ∀ d : Char, d.toNat < 48 ∨ 102 < d.toNat ∨ d.toNat = 92 → c ≠ d := by
    rintro d hd rfl
    omega
  have hplain : c ≠ quote := hne quote (by rcases hquote with rfl | rfl <;> exact Or.inl (by decide))
  simp only [isPlain, isSpelledOut, bne_iff_ne.mpr hplain, bne_iff_ne.mpr (hne '\\' (by decide)),
    beq_eq_false_iff_ne.mpr (hne '\u2028' (by decide)),
    beq_eq_false_iff_ne.mpr (hne '\u2029' (by decide)),
    beq_eq_false_iff_ne.mpr (hne '\ufeff' (by decide))]
  simp
  omega

theorem isSurrogate_take {text : List Char} {n : Nat} (hnumber : hexNumber? (text.take 4) = some n)
    (hlength : (text.take 4).length = 4) (hlow : 0xD800 ≤ n) (hhigh : n ≤ 0xDFFF) :
    ∃ values, Escape.IsSurrogate (text.take 4) values := by
  obtain ⟨values, hvalues, hn⟩ := Option.map_eq_some_iff.mp hnumber
  have hcontinued : Escape.continued 16 values 0 = n := by
    rw [← hn, Escape.continued]
    congr 1
    funext m v
    omega
  refine ⟨values, hlength, ?_, by omega, ?_⟩
  · rw [← hvalues]
    congr 1
    funext c
    exact (hexValue?_eq_digitValue? c).symm
  · rw [hcontinued, Escape.scalar?, if_neg (by simp; omega)]

/-- What names a surrogate. -/
theorem exists_isSurrogate {rest : List Char} (hname : namesSurrogate rest = true) :
    ∃ digits values more, Escape.IsSurrogate digits values ∧
      (rest = 'u' :: (digits ++ more) ∨ rest = 'u' :: '{' :: (digits ++ more)) := by
  unfold namesSurrogate at hname
  dsimp only at hname
  split at hname
  · rename_i hnumber
    simp only [Bool.and_eq_true, beq_iff_eq, decide_eq_true_eq] at hname
    revert hnumber hname
    split <;> rintro hnumber ⟨⟨hlength, hlow⟩, hhigh⟩
    · rename_i text
      obtain ⟨values, hvalues⟩ := isSurrogate_take hnumber hlength hlow hhigh
      exact ⟨_, values, text.drop 4, hvalues, Or.inr (by rw [List.take_append_drop])⟩
    · rename_i text _
      obtain ⟨values, hvalues⟩ := isSurrogate_take hnumber hlength hlow hhigh
      exact ⟨_, values, text.drop 4, hvalues, Or.inl (by rw [List.take_append_drop])⟩
    · exact absurd hlength (by decide)
  · exact absurd hname Bool.false_ne_true

theorem isPlain_of_mem_digits (hquote : quote = '"' ∨ quote = '\'') {digits : List Char}
    {values : List Nat} (hdigits : Escape.IsSurrogate digits values) {c : Char} (hc : c ∈ digits) :
    isPlain quote c = true :=
  isPlain_of_digit hquote (Escape.isSome_digitValue?_of_mem hdigits.mapM_eq hc)

/-- A backslash in front of what names a surrogate, which both are written as they are. -/
theorem Spells.surrogate (hquote : quote = '"' ∨ quote = '\'') {rest after : List Char}
    (hname : namesSurrogate rest = true) (hcloses : closesSurrogate rest = true)
    (hshorter : ∀ more, more <:+ rest → Spells quote after (escapedChars quote more) more) :
    Spells quote after ('\\' :: escapedChars quote rest) ('\\' :: rest) := by
  have hletter : isPlain quote 'u' = true := by rcases hquote with rfl | rfl <;> decide
  have hopen : isPlain quote '{' = true := by rcases hquote with rfl | rfl <;> decide
  have hclose : isPlain quote '}' = true := by rcases hquote with rfl | rfl <;> decide
  obtain ⟨digits, values, more, hdigits, rfl | rfl⟩ := exists_isSurrogate hname
  · have hplain : ∀ c ∈ 'u' :: digits, isPlain quote c = true := by
      intro c hc
      rcases List.mem_cons.mp hc with rfl | hmem
      · exact hletter
      · exact isPlain_of_mem_digits hquote hdigits hmem
    rw [← List.cons_append, escapedChars_append hplain]
    apply Spells.escape ('u' :: digits) ('\\' :: 'u' :: digits) _ (hshorter more ⟨'u' :: digits, rfl⟩)
    rw [List.cons_append, hdigits.read, List.length_cons, hdigits.length_eq]
  · have hnext : more.head? = some '}' := by
      simpa [closesSurrogate, hname, List.getElem?_append, hdigits.length_eq,
        List.head?_eq_getElem?] using hcloses
    obtain ⟨rest, rfl⟩ : ∃ rest, more = '}' :: rest := List.head?_eq_some_iff.mp hnext
    have hplain : ∀ c ∈ 'u' :: '{' :: (digits ++ ['}']), isPlain quote c = true := by
      intro c hc
      simp only [List.mem_cons, List.mem_append, List.not_mem_nil, or_false] at hc
      rcases hc with rfl | rfl | hmem | rfl
      · exact hletter
      · exact hopen
      · exact isPlain_of_mem_digits hquote hdigits hmem
      · exact hclose
    have hsplit : 'u' :: '{' :: (digits ++ '}' :: rest) = 'u' :: '{' :: (digits ++ ['}']) ++ rest := by
      simp
    rw [hsplit, escapedChars_append hplain]
    apply Spells.escape ('u' :: '{' :: (digits ++ ['}'])) ('\\' :: 'u' :: '{' :: (digits ++ ['}'])) _
      (hshorter rest ⟨'u' :: '{' :: (digits ++ ['}']), hsplit.symm⟩)
    have hread := hdigits.read_braced (escapedChars quote rest ++ quote :: after)
    simpa [hdigits.length_eq] using hread

theorem closesSurrogates_of_suffix {text rest : List Char} (hcloses : closesSurrogates text = true)
    (hsuffix : rest <:+ text) : closesSurrogates rest = true := by
  induction text with
  | nil => rwa [List.suffix_nil.mp hsuffix]
  | cons c cs ih =>
      rcases List.suffix_cons_iff.mp hsuffix with rfl | hinner
      · exact hcloses
      · rw [closesSurrogates, Bool.and_eq_true] at hcloses
        exact ih hcloses.2 hinner

/-- What is written for a string is read as the string. -/
theorem spells_escapedChars (hquote : quote = '"' ∨ quote = '\'') (after : List Char)
    {value : List Char} (hcloses : closesSurrogates value = true) :
    Spells quote after (escapedChars quote value) value := by
  -- What names a surrogate is taken at once, so the induction is on the length.
  induction hlength : value.length using Nat.strongRecOn generalizing value with
  | ind n ih =>
      subst hlength
      cases value with
      | nil => exact .nil
      | cons c rest =>
          have hshorter : ∀ more, more <:+ rest → Spells quote after (escapedChars quote more) more := by
            intro more hsuffix
            have hlt : more.length < (c :: rest).length := Nat.lt_succ_of_le hsuffix.length_le
            have hsuffix := hsuffix.trans (List.suffix_cons c rest)
            exact ih more.length hlt (closesSurrogates_of_suffix hcloses hsuffix) rfl
          rw [escapedChars]
          by_cases hname : c = '\\' ∧ namesSurrogate rest = true
          · obtain ⟨rfl, hname⟩ := hname
            have hback : Quoting.escaped quote '\\' rest = ['\\'] := by
              have hne : ('\\' == quote) = false := by rcases hquote with rfl | rfl <;> rfl
              unfold Quoting.escaped
              rw [hne, hname]
              rfl
            rw [closesSurrogates, Bool.and_eq_true] at hcloses
            rw [hback]
            exact .surrogate hquote hname (by simpa using hcloses.1) hshorter
          · apply (hshorter rest (List.suffix_refl rest)).escaped hquote
            intro hc
            rw [← Bool.not_eq_true]
            exact fun hsurrogate => hname ⟨hc, hsurrogate⟩

end Escaped

theorem bestQuote_eq (value : List Char) : bestQuote value = '"' ∨ bestQuote value = '\'' := by
  rw [bestQuote]
  split
  · exact Or.inr rfl
  · exact Or.inl rfl

/-- The better quote is not in the value, unless both are. -/
theorem bestQuote_not_mem {value : List Char} (hvalue : '"' ∉ value ∨ '\'' ∉ value) :
    bestQuote value ∉ value := by
  rw [bestQuote]
  split
  · rename_i hless
    intro hmem
    have hsingle := List.count_pos_iff.mpr hmem
    have hdouble : '"' ∈ value := List.count_pos_iff.mp (by omega)
    exact hvalue.elim (· hdouble) (· hmem)
  · rename_i hless
    intro hmem
    have hdouble := List.count_pos_iff.mpr hmem
    have hsingle : '\'' ∈ value := List.count_pos_iff.mp (by omega)
    exact hvalue.elim (· hmem) (· hsingle)

/-- The characters with which a character is spelled out. -/
def spelling : List Char := ['\\', 'u', '2', '0', '8', '9', 'F', 'E']

section Simple

variable {quote : Char} (hquote : quote = '"' ∨ quote = '\'') {value : List Char}
  (hvalue : ∀ c ∈ value, isPlain quote c = true ∨ isSpelledOut c = true)

include hquote in
theorem escaped_of_isSpelledOut {c : Char} (hc : isSpelledOut c = true) (rest : List Char) :
    (∀ d ∈ escaped quote c rest, d ∈ spelling) ∧ (escaped quote c rest).length = 6 := by
  simp only [isSpelledOut, Bool.or_eq_true, beq_iff_eq] at hc
  have hrest : escaped quote c rest = escaped quote c [] := by
    rcases hc with (rfl | rfl) | rfl <;> rcases hquote with rfl | rfl <;> rfl
  rw [hrest]
  rcases hc with (rfl | rfl) | rfl <;> rcases hquote with rfl | rfl <;> simp [escaped, spelling]

include hquote hvalue

theorem mem_escapedChars {d : Char} (hd : d ∈ escapedChars quote value) :
    d ∈ value ∨ d ∈ spelling := by
  induction value with
  | nil => exact absurd hd List.not_mem_nil
  | cons c rest ih =>
      rw [escapedChars, List.mem_append] at hd
      rcases hd with hd | hd
      · rcases hvalue c List.mem_cons_self with hplain | hspelled
        · rw [escaped_of_isPlain hplain] at hd
          exact Or.inl (List.mem_singleton.mp hd ▸ List.mem_cons_self)
        · exact Or.inr ((escaped_of_isSpelledOut hquote hspelled rest).1 d hd)
      · have hrest := ih (fun e he => hvalue e (List.mem_cons_of_mem _ he)) hd
        exact hrest.imp_left (List.mem_cons_of_mem _)

theorem length_escapedChars :
    (escapedChars quote value).length = value.length + 5 * value.countP isSpelledOut := by
  induction value with
  | nil => rfl
  | cons c rest ih =>
      have hrest := ih fun e he => hvalue e (List.mem_cons_of_mem _ he)
      rw [escapedChars, List.length_append, hrest, List.length_cons, List.countP_cons]
      cases hspelled : isSpelledOut c with
      | true =>
          rw [(escaped_of_isSpelledOut hquote hspelled rest).2]
          simp only [↓reduceIte]
          omega
      | false =>
          have hplain := (hvalue c List.mem_cons_self).resolve_right (by simp [hspelled])
          rw [escaped_of_isPlain hplain]
          simp only [List.length_singleton, Bool.false_eq_true, ↓reduceIte]
          omega

/-- The string is written as it is exactly if no character is spelled out. -/
theorem escapedChars_eq_iff :
    escapedChars quote value = value ↔ ∀ c ∈ value, isSpelledOut c = false := by
  constructor
  · intro heq c hc
    have hlength := length_escapedChars hquote hvalue
    rw [heq] at hlength
    have hcount : value.countP isSpelledOut = 0 := by omega
    exact Bool.eq_false_iff.mpr (List.countP_eq_zero.mp hcount c hc)
  · intro hnone
    have hplain : ∀ c ∈ value, isPlain quote c = true := fun c hc =>
      (hvalue c hc).resolve_right (by simp [hnone c hc])
    have happend := escapedChars_append hplain []
    rwa [List.append_nil, escapedChars, List.append_nil] at happend

end Simple

end Quoting
end BreakpointProps.Script
