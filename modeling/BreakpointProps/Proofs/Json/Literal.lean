import Mathlib.Algebra.GroupWithZero.Nat
import Mathlib.Data.List.Basic
import BreakpointProps.Json.Basic
import BreakpointProps.Json.Literal
import BreakpointProps.Proofs.Text.CharClass

/-!
Strings and whole numbers of JSON texts. What is written for one of them is read as it, and passed over as a
whole, wherever it stands and whatever follows.
-/

namespace BreakpointProps.Json

section Cursor

theorem Cursor.skip_append (text rest : List Char) (offset : Nat) :
    (Cursor.mk (text ++ rest) offset).skip text.length = ⟨rest, offset + text.length⟩ := by
  rw [skip, List.drop_left]

end Cursor

section Quoted

variable {c : Char} {rest : List Char}

/-- A character between quotes stands for itself, or there is a letter or a number for it. -/
theorem escaped_cases (c : Char) :
    (escaped c = [c] ∧ c ≠ '"' ∧ c ≠ '\\' ∧ 0x20 ≤ c.toNat) ∨
      (∃ letter, escaped c = ['\\', letter] ∧ letter ≠ 'u' ∧ shortEscape? letter = some c) ∨
      (escaped c = ['\\', 'u', '0', '0', hexDigit (c.toNat / 16), hexDigit (c.toNat % 16)] ∧
        c.toNat < 0x20) := by
  unfold escaped
  split
  · exact Or.inr (Or.inl ⟨_, rfl, by decide, rfl⟩)
  · exact Or.inr (Or.inl ⟨_, rfl, by decide, rfl⟩)
  · exact Or.inr (Or.inl ⟨_, rfl, by decide, rfl⟩)
  · exact Or.inr (Or.inl ⟨_, rfl, by decide, rfl⟩)
  · exact Or.inr (Or.inl ⟨_, rfl, by decide, rfl⟩)
  · exact Or.inr (Or.inl ⟨_, rfl, by decide, rfl⟩)
  · exact Or.inr (Or.inl ⟨_, rfl, by decide, rfl⟩)
  · rename_i hquote hbackslash _ _ _ _ _
    split
    · exact Or.inr (Or.inr ⟨rfl, by assumption⟩)
    · exact Or.inl ⟨rfl, hquote, hbackslash, by omega⟩

theorem hexValue?_hexDigit : ∀ n < 16, hexValue? (hexDigit n) = some n := by decide

theorem hexEscape_control (hcontrol : c.toNat < 0x20) (rest : List Char) (offset : Nat) :
    hexEscape ⟨'0' :: '0' :: hexDigit (c.toNat / 16) :: hexDigit (c.toNat % 16) :: rest, offset⟩ =
      .ok (c.toNat, ⟨rest, offset + 4⟩) := by
  have hzero : hexValue? '0' = some 0 := by decide
  have hhigh := hexValue?_hexDigit (c.toNat / 16) (by omega)
  have hlow := hexValue?_hexDigit (c.toNat % 16) (by omega)
  have hvalue : c.toNat / 16 * 16 + c.toNat % 16 = c.toNat := Nat.div_add_mod' c.toNat 16
  simp [hexEscape, hzero, hhigh, hlow, hvalue, Cursor.skip]

theorem unicodeEscape_control (hcontrol : c.toNat < 0x20) (rest : List Char) (offset : Nat) :
    unicodeEscape ⟨'0' :: '0' :: hexDigit (c.toNat / 16) :: hexDigit (c.toNat % 16) :: rest, offset⟩ =
      .ok (c, ⟨rest, offset + 4⟩) := by
  have htrailing : isTrailing c.toNat = false := by
    simp only [isTrailing, Bool.and_eq_false_iff, decide_eq_false_iff_not]
    omega
  have hleading : isLeading c.toNat = false := by
    simp only [isLeading, Bool.and_eq_false_iff, decide_eq_false_iff_not]
    omega
  simp [unicodeEscape, hexEscape_control hcontrol, htrailing, hleading, bind, Except.bind, Char.ofNat_toNat]

/-- One character is read, and passed over, in one step. -/
theorem exists_step_escaped (c : Char) (rest : List Char) (fuel offset : Nat) :
    ∃ stop,
      (∀ read, readString.go (fuel + 1) ⟨escaped c ++ rest, offset⟩ read =
        readString.go fuel ⟨rest, stop⟩ (c :: read)) ∧
      passString.go (fuel + 1) ⟨escaped c ++ rest, offset⟩ = passString.go fuel ⟨rest, stop⟩ := by
  rcases escaped_cases c with ⟨hescaped, hquote, hbackslash, hplain⟩ | ⟨letter, hescaped, hu, hletter⟩ |
    ⟨hescaped, hcontrol⟩
  · have hcontrol : ¬ c.toNat < 0x20 := Nat.not_lt.mpr hplain
    refine ⟨offset + c.utf8Size, fun read => ?_, ?_⟩
    · simp [hescaped, readString.go, hcontrol]
    · simp [hescaped, passString.go, hcontrol]
  · have hread : escape ⟨letter :: rest, offset + 1⟩ = .ok (c, ⟨rest, offset + 1 + 1⟩) := by
      simp [escape, hletter, Cursor.skip]
    have hpass : passEscape ⟨letter :: rest, offset + 1⟩ = .ok ⟨rest, offset + 1 + 1⟩ := by
      simp [passEscape, hu, hread, Except.map]
    refine ⟨offset + 1 + 1, fun read => ?_, ?_⟩
    · simp [hescaped, readString.go, Cursor.skip, hread, bind, Except.bind]
    · simp [hescaped, passString.go, Cursor.skip, hpass, bind, Except.bind]
  · have hread := unicodeEscape_control hcontrol rest (offset + 2)
    have hpass := hexEscape_control hcontrol rest (offset + 2)
    refine ⟨offset + 2 + 4, fun read => ?_, ?_⟩
    · simp [hescaped, readString.go, escape, Cursor.skip, hread, bind, Except.bind]
    · simp [hescaped, passString.go, passEscape, Cursor.skip, hpass, Except.map, bind, Except.bind]

theorem exists_go_flatMap_escaped (chars rest : List Char) (fuel offset : Nat) (hfuel : chars.length < fuel) :
    ∃ stop,
      (∀ read, readString.go fuel ⟨chars.flatMap escaped ++ '"' :: rest, offset⟩ read =
        .ok (String.ofList (read.reverse ++ chars), ⟨rest, stop⟩)) ∧
      passString.go fuel ⟨chars.flatMap escaped ++ '"' :: rest, offset⟩ = .ok ⟨rest, stop⟩ := by
  induction chars generalizing fuel offset with
  | nil =>
      obtain ⟨fuel, rfl⟩ := Nat.exists_eq_add_of_lt hfuel
      exact ⟨offset + 1, fun read => by simp [readString.go, Cursor.skip], by simp [passString.go, Cursor.skip]⟩
  | cons c chars ih =>
      obtain ⟨fuel, rfl⟩ : ∃ less, fuel = less + 1 := ⟨fuel - 1, by omega⟩
      obtain ⟨between, hread, hpass⟩ := exists_step_escaped c (chars.flatMap escaped ++ '"' :: rest) fuel offset
      obtain ⟨stop, hreadRest, hpassRest⟩ := ih fuel between (by simpa using hfuel)
      refine ⟨stop, fun read => ?_, ?_⟩
      · rw [List.flatMap_cons, List.append_assoc, hread, hreadRest]
        simp
      · rw [List.flatMap_cons, List.append_assoc, hpass, hpassRest]

theorem length_le_length_flatMap_escaped (chars : List Char) : chars.length ≤ (chars.flatMap escaped).length := by
  induction chars with
  | nil => exact Nat.le_refl 0
  | cons c chars ih =>
      have hone : 1 ≤ (escaped c).length := by
        rcases escaped_cases c with ⟨h, -⟩ | ⟨_, h, -⟩ | ⟨h, -⟩ <;> simp [h]
      rw [List.flatMap_cons, List.length_append, List.length_cons]
      omega

/-- A string is read from behind its opening quote, and passed over to the same place. -/
theorem exists_readString_quoted (text : String) (rest : List Char) (offset : Nat) :
    ∃ stop, readString ⟨text.toList.flatMap escaped ++ '"' :: rest, offset⟩ = .ok (text, ⟨rest, stop⟩) ∧
      passString ⟨text.toList.flatMap escaped ++ '"' :: rest, offset⟩ = .ok ⟨rest, stop⟩ := by
  have hlength := length_le_length_flatMap_escaped text.toList
  obtain ⟨stop, hread, hpass⟩ := exists_go_flatMap_escaped text.toList rest
    ((text.toList.flatMap escaped ++ '"' :: rest).length + 1) offset (by rw [List.length_append]; omega)
  refine ⟨stop, ?_, hpass⟩
  rw [readString, hread, List.reverse_nil, List.nil_append, String.ofList_toList]

theorem toList_quoted (text : String) : (quoted text).toList = '"' :: (text.toList.flatMap escaped ++ ['"']) := by
  rw [quoted, String.toList_ofList, List.cons_append]

end Quoted

section Numeral

/-- Is this the text behind a number? Nothing at its start may go on with the number. -/
def EndsNumber (rest : List Char) : Prop :=
  ∀ c ∈ rest.head?, c.isDigit = false ∧ c ≠ '.' ∧ c ≠ 'e' ∧ c ≠ 'E'

variable {rest : List Char} {n : Nat}

theorem digits_append {ds : List Char} (hds : ∀ c ∈ ds, c.isDigit = true)
    (hrest : ∀ c ∈ rest.head?, c.isDigit = false) (offset : Nat) :
    digits ⟨ds ++ rest, offset⟩ = (ds, ⟨rest, offset + ds.length⟩) := by
  rw [digits]
  dsimp only
  rw [Text.takeWhile_append_of_stop hds hrest, Cursor.skip_append]

theorem le_ofDigitChars (ds : List Char) (n : Nat) : n ≤ Nat.ofDigitChars 10 ds n := by
  induction ds generalizing n with
  | nil => exact Nat.le_refl n
  | cons c ds ih =>
      rw [Nat.ofDigitChars_cons]
      exact Nat.le_trans (by omega) (ih _)

/-- All digits go into a significand that fits. -/
theorem accumulate_of_lt {ds : List Char} {significand : Nat}
    (hfits : Nat.ofDigitChars 10 ds significand < Nat.pow 2 64) :
    accumulate significand ds = (Nat.ofDigitChars 10 ds significand, ds.length) := by
  induction ds generalizing significand with
  | nil => rfl
  | cons c ds ih =>
      rw [Nat.ofDigitChars_cons] at hfits
      have hstep : 10 * significand + (c.toNat - 48) < Nat.pow 2 64 :=
        Nat.lt_of_le_of_lt (le_ofDigitChars ds _) hfits
      rw [accumulate, if_pos hstep, Nat.ofDigitChars_cons]
      exact congrArg (fun taken => (taken.1, taken.2 + 1)) (ih hfits)

/-- No digit is written in front that is not needed. -/
theorem head?_toDigits (hn : n ≠ 0) : (Nat.toDigits 10 n).head? ≠ some '0' := by
  induction n using Nat.strongRecOn with
  | ind n ih =>
      by_cases hsmall : n < 10
      · have hdigit : ∀ digit < 10, digit ≠ 0 → Nat.digitChar digit ≠ '0' := by decide
        rw [Nat.toDigits_of_lt_base hsmall, List.head?_cons]
        exact fun h => hdigit n hsmall hn (Option.some.inj h)
      · rw [Nat.toDigits_of_base_le (by decide) (by omega),
          List.head?_append_of_ne_nil _ (List.ne_nil_of_length_pos Nat.length_toDigits_pos)]
        exact ih (n / 10) (by omega) (by omega)

/-- A whole number is read from behind its sign. -/
theorem exists_readNumber_toDigits (negative : Bool) (hrest : EndsNumber rest) (hfits : n < 2 ^ 64)
    (hnegative : negative = true → 0 < n ∧ n ≤ 2 ^ 63) (offset : Nat) :
    ∃ stop, readNumber negative ⟨Nat.toDigits 10 n ++ rest, offset⟩ =
      .ok (.int (if negative then -n else n), ⟨rest, stop⟩) := by
  have hdigits := digits_append (Text.isDigit_toDigits n) (fun c hc => (hrest c hc).1) offset
  have hvalue : Nat.ofDigitChars 10 (Nat.toDigits 10 n) 0 = n := Nat.ofDigitChars_toDigits (by decide) (by decide)
  have haccumulate : accumulate 0 (Nat.toDigits 10 n) = (n, (Nat.toDigits 10 n).length) := by
    rw [accumulate_of_lt (by rw [hvalue]; exact hfits), hvalue]
  have hpeek : ∀ c ∈ (Cursor.mk rest (offset + (Nat.toDigits 10 n).length)).peek?, c ≠ '.' ∧ c ≠ 'e' ∧ c ≠ 'E' :=
    fun c hc => (hrest c hc).2
  refine ⟨offset + (Nat.toDigits 10 n).length, ?_⟩
  rw [readNumber, hdigits]
  dsimp only
  split
  · rename_i hnil
    exact absurd hnil (List.ne_nil_of_length_pos Nat.length_toDigits_pos)
  · rename_i c more hzero
    -- Only the number zero starts with a zero, and it has no further digit.
    by_cases hn : n = 0
    · subst hn
      cases hzero
    · exact absurd (by rw [hzero]; rfl) (head?_toDigits hn)
  · rw [haccumulate]
    dsimp only
    split
    · rename_i hdot
      exact absurd rfl (hpeek _ hdot).1
    · rename_i he
      exact absurd rfl (hpeek _ he).2.1
    · rename_i he
      exact absurd rfl (hpeek _ he).2.2
    · rw [if_neg (Nat.lt_irrefl _)]
      cases negative with
      | false => rfl
      | true =>
          obtain ⟨hpos, hle⟩ := hnegative rfl
          have hle : ¬ Nat.pow 2 63 < n := Nat.not_lt.mpr hle
          simp [Nat.ne_of_gt hpos, hle]

end Numeral

end BreakpointProps.Json
