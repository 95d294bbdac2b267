import BreakpointProps.Script.Lexer.Escape

/-!
Escapes that a reader of strings understands: which digits it takes behind a backslash, and what they
stand for. What names a surrogate stands for itself, for there is no such character.
-/

namespace BreakpointProps.Script

namespace Escape

/-- What is known after digits were read. -/
def Digits.extend (d : Digits) (cs : List Char) (value : Nat) : Digits :=
  { d with value, count := d.count + cs.length, length := d.length + cs.length, digits := d.digits ++ cs }

/-- The number that digits continue. -/
def continued (radix : Nat) (values : List Nat) (n : Nat) : Nat :=
  values.foldl (fun n v => n * radix + v) n

theorem digitValue?_underscore (radix : Nat) : Decimal.digitValue? radix '_' = none := by
  simp [Decimal.digitValue?]

theorem isSome_digitValue?_of_mem {radix : Nat} {cs : List Char} {values : List Nat}
    (hvalues : cs.mapM (Decimal.digitValue? radix) = some values) {c : Char} (hc : c ∈ cs) :
    (Decimal.digitValue? radix c).isSome := by
  induction cs generalizing values with
  | nil => exact absurd hc List.not_mem_nil
  | cons d ds ih =>
      rw [List.mapM_cons] at hvalues
      obtain ⟨v, hd, hrest⟩ := Option.bind_eq_some_iff.mp hvalues
      obtain ⟨vs, hds, _⟩ := Option.bind_eq_some_iff.mp hrest
      rcases List.mem_cons.mp hc with rfl | hmem
      · rw [hd]
        rfl
      · exact ih hds hmem

/-- Digits are read up to where nothing more is read. -/
theorem digits_append {radix : Nat} {limit : Option Nat} {cs more : List Char} {values : List Nat}
    {d : Digits} (hvalues : cs.mapM (Decimal.digitValue? radix) = some values)
    (hlimit : ∀ n, limit = some n → d.count + cs.length ≤ n)
    (hstop : ∀ previous d', d'.count = d.count + cs.length →
      digits radix limit more previous d' = d') (previous : Option Char) :
    digits radix limit (cs ++ more) previous d =
      d.extend cs (continued radix values d.value) := by
  induction cs generalizing values d previous with
  | nil =>
      obtain rfl : values = [] := by simpa using hvalues.symm
      rw [List.nil_append, hstop previous d rfl]
      simp [Digits.extend, continued]
  | cons c cs ih =>
      rw [List.mapM_cons] at hvalues
      obtain ⟨v, hc, hrest⟩ := Option.bind_eq_some_iff.mp hvalues
      obtain ⟨vs, hcs, hcons⟩ := Option.bind_eq_some_iff.mp hrest
      obtain rfl := Option.some.inj hcons
      have hunder : (c == '_') = false := by
        rw [beq_eq_false_iff_ne]
        rintro rfl
        rw [digitValue?_underscore] at hc
        exact absurd hc (by simp)
      have hgo : (limit == some d.count && d.count != 0) = false := by
        cases limit with
        | none => rfl
        | some n =>
            have hn := hlimit n rfl
            have hne : n ≠ d.count := by simp at hn; omega
            simp [hne]
      rw [List.cons_append, digits]
      simp only [hgo, hunder, hc, Bool.false_eq_true, ↓reduceIte]
      rw [ih hcs]
      · simp [Digits.extend, continued, Nat.add_comm, Nat.add_left_comm]
      · intro n hn
        have hle := hlimit n hn
        simp only [List.length_cons] at hle ⊢
        omega
      · intro previous d' hd'
        apply hstop
        simp only [List.length_cons] at hd' ⊢
        omega

/-- As many digits are read as are wanted. -/
theorem digits_of_length {radix : Nat} {cs : List Char} {values : List Nat}
    (hvalues : cs.mapM (Decimal.digitValue? radix) = some values) (hcs : cs ≠ []) (more : List Char) :
    digits radix (some cs.length) (cs ++ more) none {} =
      ({} : Digits).extend cs (continued radix values 0) := by
  apply digits_append hvalues
  · intro n hn
    simp [← Option.some.inj hn]
  · intro previous d' hd'
    have hlength : d'.count = cs.length := by simpa using hd'
    have hpos : cs.length ≠ 0 := by simpa using hcs
    cases more with
    | nil => rfl
    | cons c rest => simp [digits, hlength, hpos]

/-- Digits are read up to a closing brace. -/
theorem digits_of_brace {cs : List Char} {values : List Nat}
    (hvalues : cs.mapM (Decimal.digitValue? 16) = some values) (more : List Char) :
    digits 16 none (cs ++ '}' :: more) none {} =
      ({} : Digits).extend cs (continued 16 values 0) := by
  apply digits_append hvalues
  · intro n hn
    exact absurd hn (by simp)
  · intro previous d' _
    simp [digits, Decimal.digitValue?]

section Four

variable (cs : List Char) {values : List Nat}

theorem digits_of_four (hlength : cs.length = 4)
    (hvalues : cs.mapM (Decimal.digitValue? 16) = some values) (more : List Char) :
    digits 16 (some 4) (cs ++ more) none {} = ({} : Digits).extend cs (continued 16 values 0) := by
  have hdigits := digits_of_length hvalues (List.length_pos_iff.mp (by omega)) more
  rwa [hlength] at hdigits

/-- Digits do not open braces. -/
theorem not_opensBrace (hlength : cs.length = 4)
    (hvalues : cs.mapM (Decimal.digitValue? 16) = some values) (more : List Char) :
    ((cs ++ more).head? == some '{') = false := by
  have hne : cs ≠ [] := List.length_pos_iff.mp (by omega)
  rw [List.head?_append, List.head?_eq_some_head hne, Option.some_or, beq_eq_false_iff_ne]
  intro hbrace
  have hdigit := isSome_digitValue?_of_mem hvalues (List.head_mem hne)
  rw [Option.some.inj hbrace] at hdigit
  exact absurd hdigit (by decide)

/-- Four digits behind a `u` stand for the character of that number, or for what names a surrogate. -/
theorem read_four (hlength : cs.length = 4)
    (hvalues : cs.mapM (Decimal.digitValue? 16) = some values)
    (hsmall : continued 16 values 0 ≤ 0x10FFFF) (more : List Char) :
    read false ('u' :: (cs ++ more)) =
      ⟨.ok (match scalar? (continued 16 values 0) with
        | some c => [c]
        | none => '\\' :: 'u' :: cs), 5, []⟩ := by
  rw [read, unicode]
  simp only [not_opensBrace cs hlength hvalues, Bool.false_eq_true, ↓reduceIte,
    digits_of_four cs hlength hvalues, Digits.extend, Nat.zero_add, hlength, beq_self_eq_true,
    Nat.not_lt.mpr hsmall]
  cases scalar? (continued 16 values 0) with
  | some c => rfl
  | none => simp [surrogateText, hlength, Digits.noted]

end Four

/-- Two digits behind an `x`. -/
theorem read_hex {c d : Char} {v w : Nat} (hc : Decimal.digitValue? 16 c = some v)
    (hd : Decimal.digitValue? 16 d = some w) (hlow : v * 16 + w < 0xD800) (more : List Char) :
    read false ('x' :: c :: d :: more) = ⟨.ok [Char.ofNat (v * 16 + w)], 3, []⟩ := by
  have hvalues : [c, d].mapM (Decimal.digitValue? 16) = some [v, w] := by simp [hc, hd]
  have hdigits := digits_of_length hvalues (by simp) more
  simp only [List.length_cons, List.length_nil, List.cons_append, List.nil_append, Nat.zero_add,
    Nat.reduceAdd] at hdigits
  simp [read, hdigits, Digits.extend, continued, scalar?, hlow, Digits.noted]

/-- Four digits that name a surrogate. -/
structure IsSurrogate (digits : List Char) (values : List Nat) : Prop where
  length_eq : digits.length = 4
  mapM_eq : digits.mapM (Decimal.digitValue? 16) = some values
  le_max : continued 16 values 0 ≤ 0x10FFFF
  scalar?_eq : scalar? (continued 16 values 0) = none

/-- What names a surrogate stands for itself. -/
theorem IsSurrogate.read {cs : List Char} {values : List Nat} (hcs : IsSurrogate cs values)
    (more : List Char) :
    Escape.read false ('u' :: (cs ++ more)) = ⟨.ok ('\\' :: 'u' :: cs), 5, []⟩ := by
  rw [read_four cs hcs.length_eq hcs.mapM_eq hcs.le_max, hcs.scalar?_eq]

/-- What names a surrogate in braces stands for itself. -/
theorem IsSurrogate.read_braced {cs : List Char} {values : List Nat} (hcs : IsSurrogate cs values)
    (more : List Char) :
    Escape.read false ('u' :: '{' :: (cs ++ '}' :: more)) =
      ⟨.ok ('\\' :: 'u' :: '{' :: (cs ++ ['}'])), 7, []⟩ := by
  obtain ⟨hlength, hvalues, hsmall, hsurrogate⟩ := hcs
  have hbrace : ∀ c ∈ cs, (c != '}') = true := by
    intro c hc
    rw [bne_iff_ne]
    rintro rfl
    exact absurd (isSome_digitValue?_of_mem hvalues hc) (by decide)
  have htaken : ((cs ++ '}' :: more).take 6).takeWhile (· != '}') = cs := by
    rw [List.take_append, hlength, List.take_of_length_le (by omega),
      List.takeWhile_append_of_pos (by simpa using hbrace)]
    simp
  rw [Escape.read, unicode]
  simp [digits_of_brace hvalues, Digits.extend, hlength, Nat.not_lt.mpr hsmall, hsurrogate,
    surrogateText, htaken, Digits.noted]

end Escape

end BreakpointProps.Script
