import BreakpointProps.ResponsiveProps

/-!
Taking class lists apart and putting them together. The classes of a merged list are the classes it
was merged from.
-/

namespace BreakpointProps

namespace ClassList

@[simp] theorem tokens_nil : tokens [] = [] := rfl

@[simp] theorem tokens_space (value : List Char) : tokens (' ' :: value) = tokens value := rfl

/-- A character other than the space begins a class, or belongs to the class behind it. -/
theorem tokens_cons {c : Char} (hspace : c ≠ ' ') (value : List Char) :
    tokens (c :: value) =
      match value, tokens value with
      | d :: _, token :: rest => if d = ' ' then [c] :: token :: rest else (c :: token) :: rest
      | _, rest => [c] :: rest :=
  if_neg hspace

theorem tokens_singleton {c : Char} (hspace : c ≠ ' ') : tokens [c] = [[c]] := tokens_cons hspace []

theorem tokens_cons_space {c : Char} (hspace : c ≠ ' ') (value : List Char) :
    tokens (c :: ' ' :: value) = [c] :: tokens value := by
  rw [tokens_cons hspace, tokens_space]
  cases tokens value <;> rfl

/-- A class is never empty where a character other than the space begins it. -/
theorem exists_tokens_cons {c : Char} (hspace : c ≠ ' ') (value : List Char) :
    ∃ token rest, tokens (c :: value) = token :: rest := by
  rw [tokens_cons hspace]
  split
  · split <;> exact ⟨_, _, rfl⟩
  · exact ⟨_, _, rfl⟩

theorem tokens_cons_cons {c d : Char} (hfirst : c ≠ ' ') (hsecond : d ≠ ' ') {value token : List Char}
    {rest : List (List Char)} (htokens : tokens (d :: value) = token :: rest) :
    tokens (c :: d :: value) = (c :: token) :: rest := by
  rw [tokens_cons hfirst, htokens]
  exact if_neg hsecond

/-- A space between two lists keeps their classes apart. -/
theorem tokens_append_space (left right : List Char) :
    tokens (left ++ ' ' :: right) = tokens left ++ tokens right := by
  induction left with
  | nil => rfl
  | cons c rest ih =>
      by_cases hfirst : c = ' '
      · subst hfirst
        simpa using ih
      · cases rest with
        | nil =>
            rw [List.singleton_append, tokens_cons_space hfirst, tokens_singleton hfirst,
              List.singleton_append]
        | cons d more =>
            by_cases hsecond : d = ' '
            · subst hsecond
              simp only [List.cons_append, tokens_space] at ih ⊢
              rw [tokens_cons_space hfirst, tokens_cons_space hfirst, ih, List.cons_append]
            · obtain ⟨token, tokensAfter, htokens⟩ := exists_tokens_cons hsecond more
              rw [htokens, List.cons_append, List.cons_append] at ih
              rw [tokens_cons_cons hfirst hsecond htokens, List.cons_append, List.cons_append,
                tokens_cons_cons hfirst hsecond ih, List.cons_append]

/-- What holds no space is one class. -/
theorem tokens_of_not_mem {token : List Char} (hne : token ≠ []) (hspace : ' ' ∉ token) :
    tokens token = [token] := by
  induction token with
  | nil => exact absurd rfl hne
  | cons c rest ih =>
      simp only [List.mem_cons, not_or] at hspace
      have hfirst : c ≠ ' ' := Ne.symm hspace.1
      cases rest with
      | nil => exact tokens_singleton hfirst
      | cons d more =>
          have hsecond : d ≠ ' ' := by
            intro heq
            exact hspace.2 (by simp [heq])
          exact tokens_cons_cons hfirst hsecond (ih (by simp) hspace.2)

theorem ne_nil_and_not_mem_of_mem_tokens {value token : List Char} (htoken : token ∈ tokens value) :
    token ≠ [] ∧ ' ' ∉ token := by
  induction value generalizing token with
  | nil => simp at htoken
  | cons c rest ih =>
      by_cases hfirst : c = ' '
      · subst hfirst
        exact ih (by simpa using htoken)
      · have hsingle : [c] ≠ [] ∧ ' ' ∉ [c] := by simp [Ne.symm hfirst]
        cases rest with
        | nil =>
            rw [tokens_singleton hfirst, List.mem_singleton] at htoken
            exact htoken ▸ hsingle
        | cons d more =>
            by_cases hsecond : d = ' '
            · subst hsecond
              rw [tokens_cons_space hfirst, List.mem_cons] at htoken
              rcases htoken with rfl | hrest
              · exact hsingle
              · exact ih (by simpa using hrest)
            · obtain ⟨head, tail, htokens⟩ := exists_tokens_cons hsecond more
              rw [tokens_cons_cons hfirst hsecond htokens, List.mem_cons] at htoken
              rcases htoken with rfl | hrest
              · have hhead : head ≠ [] ∧ ' ' ∉ head := ih (by simp [htokens])
                simp [Ne.symm hfirst, hhead.2]
              · exact ih (by simp [htokens, hrest])

/-- What takes texts apart at spaces takes joined texts apart one by one. -/
theorem apply_joined {parts : List Char → List (List Char)} (hnil : parts [] = [])
    (hspace : ∀ left right, parts (left ++ ' ' :: right) = parts left ++ parts right)
    (pieces : List (List Char)) : parts (joined pieces) = pieces.flatMap parts := by
  induction pieces with
  | nil => rw [joined, hnil, List.flatMap_nil]
  | cons piece rest ih =>
      cases rest with
      | nil => simp [joined]
      | cons next more =>
          have hjoined : joined (piece :: next :: more) = piece ++ ' ' :: joined (next :: more) := by
            simp [joined]
          rw [hjoined, hspace, ih, ← List.flatMap_cons]

/-- The classes of joined lists are the classes of each of them. -/
theorem tokens_joined (pieces : List (List Char)) :
    tokens (joined pieces) = pieces.flatMap tokens :=
  apply_joined rfl tokens_append_space pieces

/-- Classes behind a variant are classes, if the variant holds no space. -/
theorem flatMap_tokens_tokensWith {variant : List Char} (hvariant : ' ' ∉ variant)
    (value : List Char) :
    (tokensWith variant value).flatMap tokens = tokensWith variant value := by
  have hsingle : ∀ token ∈ tokensWith variant value, tokens token = [token] := by
    intro token htoken
    obtain ⟨plain, hplain, rfl⟩ := List.mem_map.mp htoken
    obtain ⟨hne, hspace⟩ := ne_nil_and_not_mem_of_mem_tokens hplain
    apply tokens_of_not_mem
    · simp [hne]
    · simp [hvariant, hspace]
  rw [List.flatMap_def, List.map_congr_left hsingle, ← List.flatMap_def]
  simp

end ClassList

open ClassList

/-- No variant holds a space. -/
theorem Breakpoint.not_mem_variant (b : Breakpoint) : ' ' ∉ b.variant.toList := by
  cases b <;> decide

namespace ResponsiveProps

/-- The classes of the merged list: those of the element, and then those of the breakpoints from the
narrowest to the widest, each behind the variant of its breakpoint. -/
theorem tokens_merged (props : ResponsiveProps) :
    tokens props.merged.toList =
      tokens (props.className.getD "").toList ++ Breakpoint.all.flatMap props.prefixedTokens := by
  have hbase : ([(props.className.getD "").toList].filter (!·.isEmpty)).flatMap tokens =
      tokens (props.className.getD "").toList := by
    cases (props.className.getD "").toList <;> simp
  have hbreakpoints : (Breakpoint.all.flatMap props.prefixedTokens).flatMap tokens =
      Breakpoint.all.flatMap props.prefixedTokens := by
    rw [List.flatMap_assoc]
    congr 1
    funext b
    exact flatMap_tokens_tokensWith b.not_mem_variant _
  rw [merged, String.toList_ofList, tokens_joined, pieces, List.flatMap_append, hbase, hbreakpoints]

end ResponsiveProps

end BreakpointProps
