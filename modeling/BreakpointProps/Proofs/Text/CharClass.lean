import Mathlib.Data.List.TakeWhile
import BreakpointProps.Text.CharClass

/-!
Classes of characters: blanks start no names, a run of characters of a class ends where another one comes, and
numbers are runs of digits.
-/

namespace BreakpointProps.Text

/-- No name starts with a blank. -/
theorem isIdentifierStart_of_mem_highBlanks {c : Char} (hblank : c.toNat ∈ highBlanks) :
    isIdentifierStart c = false := by
  obtain ⟨hstart, _⟩ := not_contains_of_mem_highBlanks _ hblank
  simp [isIdentifierStart, hstart, Nat.not_lt.mpr (toNat_of_mem_highBlanks _ hblank)]

/-- A run ends where a character does not go on with it. -/
theorem takeWhile_append_of_stop {goesOn : Char → Bool} {run rest : List Char} (hrun : ∀ c ∈ run, goesOn c = true)
    (hrest : ∀ c ∈ rest.head?, goesOn c = false) : (run ++ rest).takeWhile goesOn = run := by
  have hnone : rest.takeWhile goesOn = [] := by
    cases rest with
    | nil => rfl
    | cons c rest => rw [List.takeWhile_cons_of_neg (by simp [hrest c rfl])]
  rw [List.takeWhile_append_of_pos hrun, hnone, List.append_nil]

theorem isDigit_toDigits (n : Nat) : ∀ c ∈ Nat.toDigits 10 n, c.isDigit = true := fun _ hc =>
  Nat.isDigit_of_mem_toDigits (by decide) (by decide) hc

theorem exists_toDigits_cons (n : Nat) : ∃ c more, Nat.toDigits 10 n = c :: more ∧ c.isDigit = true := by
  obtain ⟨c, more, hmore⟩ := List.exists_cons_of_ne_nil
    (List.ne_nil_of_length_pos (Nat.length_toDigits_pos (b := 10) (n := n)))
  exact ⟨c, more, hmore, isDigit_toDigits n c (hmore ▸ List.mem_cons_self)⟩

theorem ne_of_isDigit {c d : Char} (hc : c.isDigit = true) (hd : d.isDigit = false) : c ≠ d := by
  rintro rfl
  exact absurd (hc.symm.trans hd) (by decide)

end BreakpointProps.Text
