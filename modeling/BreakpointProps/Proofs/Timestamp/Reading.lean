import Mathlib.Data.List.Basic
import BreakpointProps.Proofs.Text.CharClass
import BreakpointProps.Proofs.Timestamp.Calendar
import BreakpointProps.Timestamp.Read

/-!
Points in time of years with four digits are read from their texts, with all that they have behind the second.
-/

namespace BreakpointProps.Timestamp

section Digits

variable {width n : Nat} {rest : List Char}

theorem not_isWhiteSpace_of_isDigit {c : Char} (hc : c.isDigit = true) : Text.isWhiteSpace c = false := by
  simp only [Char.isDigit, Bool.and_eq_true, decide_eq_true_eq] at hc
  have hlow : 48 ≤ c.toNat := hc.1
  have hhigh : c.toNat ≤ 57 := hc.2
  simp only [Text.isWhiteSpace, Bool.or_eq_false_iff, Bool.and_eq_false_iff, decide_eq_false_iff_not,
    beq_eq_false_iff_ne]
  omega

theorem isDigit_of_mem_padded {c : Char} (hc : c ∈ padded width n) : c.isDigit = true := by
  rcases List.mem_append.mp hc with hzero | hdigit
  · rw [List.eq_of_mem_replicate hzero]
    rfl
  · exact Text.isDigit_toDigits n c hdigit

theorem length_padded (hwidth : 0 < width) (hn : n < 10 ^ width) : (padded width n).length = width := by
  have hlength : (Nat.toDigits 10 n).length ≤ width := (Nat.length_toDigits_le_iff (by decide) hwidth).mpr hn
  rw [padded, List.length_append, List.length_replicate]
  omega

/-- Zeros in front do not change a number. -/
theorem ofDigitChars_padded (width n : Nat) : Nat.ofDigitChars 10 (padded width n) 0 = n := by
  have hzeros : ∀ zeros : Nat, Nat.ofDigitChars 10 (List.replicate zeros '0') 0 = 0 := by
    intro zeros
    induction zeros with
    | zero => rfl
    | succ zeros ih => rw [List.replicate_succ, Nat.ofDigitChars_cons]; exact ih
  rw [padded, Nat.ofDigitChars_append, hzeros, Nat.ofDigitChars_toDigits (by decide) (by decide)]

/-- Digits are read as long as there are any. -/
theorem number_append (width : Nat) {ds : List Char} (rest : List Char) (hdigits : ∀ c ∈ ds, c.isDigit = true)
    (hne : ds ≠ []) (hlength : ds.length ≤ width)
    (hrest : ds.length < width → ∀ c ∈ rest.head?, c.isDigit = false) (hvalue : Nat.ofDigitChars 10 ds 0 < 2 ^ 63) :
    number width (ds ++ rest) = .ok (Nat.ofDigitChars 10 ds 0, rest) := by
  have hbehind : ∀ c ∈ (rest.take (width - ds.length)).head?, c.isDigit = false := by
    intro c hc
    rw [List.head?_take] at hc
    split at hc
    · cases hc
    · exact hrest (by omega) c hc
  have hfound : ((ds ++ rest).take width).takeWhile Char.isDigit = ds := by
    rw [List.take_append, List.take_of_length_le hlength, Text.takeWhile_append_of_stop hdigits hbehind]
  obtain ⟨c, more, rfl⟩ := List.exists_cons_of_ne_nil hne
  unfold number
  dsimp only
  rw [hfound, List.drop_left]
  exact if_pos hvalue

/-- A number in so many digits is read in full. -/
theorem number_padded (hwidth : 0 < width) (hn : n < 10 ^ width) (hbits : n < 2 ^ 63) (rest : List Char) :
    number width (padded width n ++ rest) = .ok (n, rest) := by
  have hlength := length_padded hwidth hn
  have hread := number_append width rest (fun _ hc => isDigit_of_mem_padded hc)
    (List.ne_nil_of_length_pos (hlength.symm ▸ hwidth)) hlength.le (fun hless => absurd hlength hless.ne)
    ((ofDigitChars_padded width n).symm ▸ hbits)
  rwa [ofDigitChars_padded] at hread

end Digits

section Parts

variable {width n : Nat} {c : Char}

theorem skipSpace_cons (hc : Text.isWhiteSpace c = false) (rest : List Char) : skipSpace (c :: rest) = c :: rest :=
  List.dropWhile_cons_of_neg (by simp [hc])

theorem exists_padded_cons (hwidth : 0 < width) (hn : n < 10 ^ width) :
    ∃ c more, padded width n = c :: more ∧ c.isDigit = true := by
  obtain ⟨c, more, hmore⟩ := List.exists_cons_of_ne_nil
    (List.ne_nil_of_length_pos ((length_padded hwidth hn).symm ▸ hwidth))
  exact ⟨c, more, hmore, isDigit_of_mem_padded (hmore ▸ List.mem_cons_self)⟩

theorem skipSpace_padded (hwidth : 0 < width) (hn : n < 10 ^ width) (rest : List Char) :
    skipSpace (padded width n ++ rest) = padded width n ++ rest := by
  obtain ⟨c, more, hmore, hc⟩ := exists_padded_cons hwidth hn
  rw [hmore]
  exact skipSpace_cons (not_isWhiteSpace_of_isDigit hc) _

theorem bounded_padded {low high : Nat} (hlow : low ≤ n) (hhigh : n ≤ high) (hn : n < 100) (rest : List Char) :
    bounded low high (padded 2 n ++ rest) = .ok (n, rest) := by
  rw [bounded, skipSpace_padded (by decide) hn, number_padded (by decide) hn (by omega)]
  simp only [bind, Except.bind, hlow, hhigh]
  rfl

theorem mark_cons (hc : Text.isWhiteSpace c = false) (rest : List Char) : mark c (c :: rest) = .ok rest := by
  rw [mark, skipSpace_cons hc]
  exact if_pos BEq.rfl

/-- A year of four digits is read without a sign. -/
theorem year_yearText {y : Int} (hlow : 0 ≤ y) (hhigh : y ≤ 9999) (rest : List Char) :
    year (yearText y ++ rest) = .ok (y, rest) := by
  obtain ⟨n, rfl⟩ := Int.eq_ofNat_of_zero_le hlow
  have hn : n < 10 ^ 4 := by omega
  have htext : yearText n = padded 4 n := by simp [yearText, hhigh]
  have hnumber := number_padded (by decide) hn (by omega) rest
  have hspace := skipSpace_padded (by decide) hn rest
  obtain ⟨c, more, hmore, hc⟩ := exists_padded_cons (by decide) hn
  have hbits : 9999 < Nat.pow 2 31 := by
    rw [Nat.pow_eq]
    omega
  -- The bound stays a name: to compare with it by its value takes a step for each number below it.
  obtain ⟨bound, hbound⟩ : ∃ bound, bound = Nat.pow 2 31 := ⟨_, rfl⟩
  rw [htext, year, hspace, hmore, ← hbound]
  rw [hmore] at hnumber
  rw [← hbound] at hbits
  dsimp only [List.cons_append] at hnumber ⊢
  split
  · rename_i hminus
    obtain rfl : c = '-' := (List.cons.inj hminus).1
    cases hc
  · rename_i hplus
    obtain rfl : c = '+' := (List.cons.inj hplus).1
    cases hc
  · have hfits : (-(bound : Int) ≤ (n : Int) && (n : Int) < (bound : Int)) = true := by
      simp only [Bool.and_eq_true, decide_eq_true_eq]
      omega
    rw [hnumber]
    exact if_pos hfits

/-- Digits behind the point are counted from the left. -/
theorem fraction_padded (width n : Nat) (hwidth : 0 < width) (hnine : width ≤ 9) (hn : n < 10 ^ width) :
    fraction ('.' :: (padded width n ++ ['Z'])) = .ok (n * 10 ^ (9 - width), ['Z']) := by
  have hlength := length_padded hwidth hn
  have hbits : n < 2 ^ 63 := Nat.lt_of_lt_of_le hn (Nat.le_trans (Nat.pow_le_pow_right (by decide) hnine) (by decide))
  have hread := number_append 9 ['Z'] (fun _ hc => isDigit_of_mem_padded hc)
    (List.ne_nil_of_length_pos (hlength.symm ▸ hwidth)) (hlength.trans_le hnine)
    (fun _ c hc => by cases hc; rfl) ((ofDigitChars_padded width n).symm ▸ hbits)
  rw [ofDigitChars_padded] at hread
  rw [fraction, hread]
  dsimp only [bind, Except.bind]
  rw [List.length_append, hlength, Nat.add_sub_cancel]
  rfl

theorem fraction_fractionText {nanos : Nat} (hnanos : nanos < 1000000000) :
    fraction (fractionText nanos ++ ['Z']) = .ok (nanos, ['Z']) := by
  unfold fractionText
  split
  · rename_i hzero
    obtain rfl : nanos = 0 := by simpa using hzero
    rfl
  · split
    · rename_i hmillis
      have hmillis : nanos % 1000000 = 0 := by simpa using hmillis
      have hread := fraction_padded 3 (nanos / 1000000) (by decide) (by decide) (by omega)
      rwa [show nanos / 1000000 * 10 ^ (9 - 3) = nanos by omega] at hread
    · split
      · rename_i hmicros
        have hmicros : nanos % 1000 = 0 := by simpa using hmicros
        have hread := fraction_padded 6 (nanos / 1000) (by decide) (by decide) (by omega)
        rwa [show nanos / 1000 * 10 ^ (9 - 6) = nanos by omega] at hread
      · have hread := fraction_padded 9 nanos (by decide) (by decide) (by omega)
        rwa [show nanos * 10 ^ (9 - 9) = nanos by omega] at hread

theorem ok_bind {ε α β : Type} (a : α) (next : α → Except ε β) : (Except.ok a >>= next) = next a := rfl

/-- A date and a time of day as they are written. -/
def written (date : Date) (hour minute second nanos : Nat) : List Char :=
  yearText date.year ++ '-' :: (padded 2 date.month ++ '-' :: (padded 2 date.day ++
    'T' :: (padded 2 hour ++ ':' :: (padded 2 minute ++ ':' :: (padded 2 second ++
      (fractionText nanos ++ ['Z']))))))

/-- The number of seconds up to a time of day. The sixtieth second of a minute belongs to the one before. -/
def secondsAt (date : Date) (hour minute second : Nat) : Int :=
  date.toDays * 86400 + hour * 3600 + minute * 60 + (if second == 60 then 59 else second : Nat)

/-- What is written part by part is read part by part. -/
theorem ofText_written {date : Date} {hour minute second nanos : Nat} (hvalid : date.isValid = true)
    (hlow : 0 ≤ date.year) (hhigh : date.year ≤ 9999) (hhour : hour < 24) (hminute : minute < 60)
    (hsecond : second ≤ 60) (hnanos : nanos < 1000000000)
    (hyear : Date.hasYear (Date.ofDays ((secondsAt date hour minute second).fdiv 86400)).year = true) :
    ofText (String.ofList (written date hour minute second nanos)) =
      .ok ⟨secondsAt date hour minute second, if second == 60 then 1000000000 + nanos else nanos⟩ := by
  have hdate := hvalid
  simp only [Date.isValid, Bool.and_eq_true, decide_eq_true_eq] at hdate
  obtain ⟨⟨⟨⟨-, hmonth⟩, htwelve⟩, hday⟩, hlast⟩ := hdate
  have hdays := Date.daysOfMonth_le date.year date.month
  have hdash : Text.isWhiteSpace '-' = false := rfl
  have hcolon : Text.isWhiteSpace ':' = false := rfl
  have hseparator : ∀ rest, separator ('T' :: rest) = .ok rest := fun _ => rfl
  have hzone : zone ['Z'] = .ok (0, []) := rfl
  rw [ofText, String.toList_ofList, written, year_yearText hlow hhigh]
  simp only [ok_bind, mark_cons hdash, mark_cons hcolon, hseparator, bounded_padded hmonth htwelve (by omega),
    bounded_padded hday (show date.day ≤ 31 by omega) (by omega),
    bounded_padded (Nat.zero_le hour) (show hour ≤ 23 by omega) (by omega),
    bounded_padded (Nat.zero_le minute) (show minute ≤ 59 by omega) (by omega),
    bounded_padded (Nat.zero_le second) hsecond (by omega), fraction_fractionText hnanos, hzone]
  rw [secondsAt] at hyear ⊢
  simp only [Int.sub_zero, hyear, hvalid]
  rfl

end Parts

/-- The date of a point in time. -/
def date (time : Timestamp) : Date := Date.ofDays (time.seconds.fdiv 86400)

/-- Is it a point in time of the years 0 to 9999? Only the last second of a minute may be a leap second. -/
structure IsCommon (time : Timestamp) : Prop where
  year_nonneg : 0 ≤ time.date.year
  year_le : time.date.year ≤ 9999
  nanos_lt : time.nanos < 2000000000
  leap : 1000000000 ≤ time.nanos → time.seconds % 60 = 59

/-- A leap second is written as the sixtieth one of its minute, and what is behind it as for any second. -/
theorem leap_cases {second nanos : Nat} (hnanos : nanos < 2000000000)
    (hleap : 1000000000 ≤ nanos → second % 60 = 59) :
    second % 60 + nanos / 1000000000 ≤ 60 ∧
      (if second % 60 + nanos / 1000000000 == 60 then 59 else second % 60 + nanos / 1000000000) = second % 60 ∧
      (if second % 60 + nanos / 1000000000 == 60 then 1000000000 + nanos % 1000000000 else nanos % 1000000000) =
        nanos := by
  by_cases hlate : 1000000000 ≤ nanos
  · have hone : nanos / 1000000000 = 1 := by omega
    rw [hone, hleap hlate]
    exact ⟨Nat.le_refl 60, rfl, (if_pos rfl).trans (by omega)⟩
  · have hzero : nanos / 1000000000 = 0 := by omega
    have hdiffer : ¬ (second % 60 == 60) = true := by
      rw [beq_iff_eq]
      omega
    rw [hzero, Nat.add_zero, if_neg hdiffer, if_neg hdiffer]
    exact ⟨by omega, rfl, by omega⟩

/-- A common point in time is read from its text. -/
theorem ofText_text {time : Timestamp} (hcommon : time.IsCommon) : ofText time.text = .ok time := by
  obtain ⟨seconds, nanos⟩ := time
  obtain ⟨hlow, hhigh, hnanos, hleap⟩ := hcommon
  have hday : (0 : Int) < 86400 := by decide
  obtain ⟨second, hsecond⟩ := Int.eq_ofNat_of_zero_le (Int.fmod_nonneg_of_pos seconds hday)
  have hbound := Int.fmod_lt_of_pos seconds hday
  have hsplit := Int.fmod_add_fdiv_mul seconds 86400
  rw [hsecond] at hsplit hbound
  dsimp only at hleap
  have hlast : 1000000000 ≤ nanos → second % 60 = 59 := fun hlate => by
    have := hleap hlate
    omega
  obtain ⟨hsixty, hshown, hpart⟩ := leap_cases hnanos hlast
  have hdays : (date ⟨seconds, nanos⟩).toDays = seconds.fdiv 86400 := Date.toDays_ofDays _
  have hyear : Date.hasYear (date ⟨seconds, nanos⟩).year = true := by
    simp only [Date.hasYear, Bool.and_eq_true, decide_eq_true_eq]
    omega
  have hvalid : (date ⟨seconds, nanos⟩).isValid = true := Date.isValid_ofDays hyear
  have htext : text ⟨seconds, nanos⟩ = String.ofList (written (date ⟨seconds, nanos⟩) (second / 3600)
      (second / 60 % 60) (second % 60 + nanos / 1000000000) (nanos % 1000000000)) := by
    simp [text, written, date, hsecond]
  have hseconds : secondsAt (date ⟨seconds, nanos⟩) (second / 3600) (second / 60 % 60)
      (second % 60 + nanos / 1000000000) = seconds := by
    rw [secondsAt, hdays, hshown]
    omega
  rw [htext, ofText_written hvalid hlow hhigh (by omega) (by omega) hsixty (by omega) (hseconds.symm ▸ hyear),
    hseconds, hpart]

end BreakpointProps.Timestamp
