import BreakpointProps.Proofs.Path.Output

/-!
Paths resolved by their text. What is left of an absolute path leads from the root down through names, and
resolving is a fold over the components, so it may stop anywhere and go on from what it has reached.
-/

namespace BreakpointProps.Path

section Join

/-- A relative path behind two others: its components come behind theirs, however the three are bracketed. -/
theorem components_join_join {base second : Path} (hbase : base.text ≠ "") (hsecond : second.isAbsolute = false)
    (first : Path) :
    (base.join (first.join second)).components =
      (base.join first).components ++ second.components.filter (· ≠ .current) := by
  cases hfirst : first.isAbsolute with
  | true =>
      have hwhole : (first.join second).isAbsolute = true := by rw [isAbsolute_join, hfirst, Bool.or_true]
      have hleft : base.join (first.join second) = first.join second := by rw [join, if_pos hwhole]
      have hright : base.join first = first := by rw [join, if_pos hfirst]
      rw [hleft, hright, components_join (text_ne_of_isAbsolute hfirst) hsecond]
  | false =>
      by_cases hempty : first.text = ""
      · have hnothing : first = ⟨""⟩ := congrArg Path.mk hempty
        rw [components_join hbase hfirst, hnothing, empty_join, components_join hbase hsecond]
        simp [components, segments, isAbsolute, component?]
      · have hwhole : (first.join second).isAbsolute = false := by rw [isAbsolute_join, hfirst, hsecond]; rfl
        rw [components_join hbase hwhole, components_join hempty hsecond, components_join hbase hfirst,
          List.filter_append, List.filter_filter, List.append_assoc]
        simp only [Bool.and_self]

end Join

section Descent

/-- Do these components lead from the root down through names? -/
def IsDescent (components : List Component) : Prop := ∃ names : List String, components = .root :: names.map .normal

/-- A step to the parent at the root stays there, so no step leaves the way down from the root. -/
theorem IsDescent.follow {done : List Component} (hdone : IsDescent done) {c : Component} (hc : c ≠ .root) :
    IsDescent (Path.follow done c) := by
  obtain ⟨names, rfl⟩ := hdone
  cases c with
  | root => exact absurd rfl hc
  | current => exact ⟨names, rfl⟩
  | normal name => exact ⟨names ++ [name], by simp [Path.follow]⟩
  | parent =>
      rw [Path.follow]
      split
      · exact ⟨names, rfl⟩
      · refine ⟨names.dropLast, ?_⟩
        cases names with
        | nil => simp_all
        | cons name rest => simp [List.map_dropLast]

theorem isDescent_foldl_follow {done components : List Component} (hdone : IsDescent done)
    (hcomponents : .root ∉ components) : IsDescent (components.foldl follow done) := by
  induction components generalizing done with
  | nil => exact hdone
  | cons c rest ih =>
      rw [List.mem_cons, not_or] at hcomponents
      exact ih (hdone.follow (Ne.symm hcomponents.1)) hcomponents.2

theorem isDescent_resolved {path : Path} (hpath : path.isAbsolute = true) : IsDescent (resolved path.components) := by
  have hlead : path.lead = [.root] := by rw [lead, if_pos hpath]
  rw [components_eq, hlead, resolved, List.foldl_append]
  exact isDescent_foldl_follow ⟨[], rfl⟩ fun hroot => (ne_of_mem_inner hroot).1 rfl

/-- There is nothing to resolve on a way down from the root. -/
theorem IsDescent.resolved {components : List Component} (hdescent : IsDescent components) :
    Path.resolved components = components := by
  obtain ⟨names, rfl⟩ := hdescent
  exact resolved_append_names [.root] names

theorem resolved_append (first second : List Component) :
    resolved (first ++ second) = second.foldl follow (resolved first) := List.foldl_append

end Descent

section LexicalAbsolute

variable {base : Path}

theorem isDescent_lexicalAbsolute (hbase : base.isAbsolute = true) (path : Path) :
    IsDescent (path.lexicalAbsolute base).components := by
  rw [components_lexicalAbsolute]
  exact isDescent_resolved (by rw [isAbsolute_join, hbase, Bool.or_true])

theorem isAbsolute_lexicalAbsolute (hbase : base.isAbsolute = true) (path : Path) :
    (path.lexicalAbsolute base).isAbsolute = true := by
  obtain ⟨names, hnames⟩ := isDescent_lexicalAbsolute hbase path
  rw [← root_mem_components_iff, hnames]
  exact List.mem_cons_self

/-- A path that is resolved is seen from no base, and it stays as it is. -/
theorem lexicalAbsolute_lexicalAbsolute (hbase : base.isAbsolute = true) (path other : Path) :
    (path.lexicalAbsolute base).lexicalAbsolute other = path.lexicalAbsolute base := by
  have habsolute := isAbsolute_lexicalAbsolute hbase path
  have hjoin : other.join (path.lexicalAbsolute base) = path.lexicalAbsolute base := by rw [join, if_pos habsolute]
  rw [lexicalAbsolute, hjoin, (isDescent_lexicalAbsolute hbase path).resolved, components_lexicalAbsolute]
  rfl

/-- Resolving may stop behind the first of two paths and go on with the second from there. -/
theorem lexicalAbsolute_join (hbase : base.isAbsolute = true) (first second : Path) :
    (first.join second).lexicalAbsolute base = second.lexicalAbsolute (first.lexicalAbsolute base) := by
  cases hsecond : second.isAbsolute with
  | true => simp [lexicalAbsolute, join, hsecond]
  | false =>
      have hdone := isAbsolute_lexicalAbsolute hbase first
      rw [lexicalAbsolute, components_join_join (text_ne_of_isAbsolute hbase) hsecond, resolved_append, lexicalAbsolute,
        components_join (text_ne_of_isAbsolute hdone) hsecond, resolved_append,
        (isDescent_lexicalAbsolute hbase first).resolved, components_lexicalAbsolute]

/-- Seen from an absolute base, every path resolves to one that is absolute and leads down through names, without
a step that stays or goes up, however many steps go up. Resolving it again, from wherever, changes nothing, and two
paths one behind the other resolve to what the second one is from what the first one resolves to. -/
theorem lexicalAbsolute_composes (base : Path) (hbase : base.isAbsolute = true) (first second : Path) :
    (first.lexicalAbsolute base).isAbsolute = true ∧
      (∀ c ∈ (first.lexicalAbsolute base).components, c ≠ .current ∧ c ≠ .parent) ∧
      (∀ other, (first.lexicalAbsolute base).lexicalAbsolute other = first.lexicalAbsolute base) ∧
      (first.join second).lexicalAbsolute base = second.lexicalAbsolute (first.lexicalAbsolute base) := by
  refine ⟨isAbsolute_lexicalAbsolute hbase first, fun c hc => ?_, lexicalAbsolute_lexicalAbsolute hbase first,
    lexicalAbsolute_join hbase first second⟩
  obtain ⟨names, hnames⟩ := isDescent_lexicalAbsolute hbase first
  rw [hnames, List.mem_cons, List.mem_map] at hc
  rcases hc with rfl | ⟨name, -, rfl⟩ <;> simp

/-- More steps go up than down: the first path stops at the root, and the second one goes on from there. -/
theorem lexicalAbsolute_composes_excess :
    (Path.mk "/w//./x").isAbsolute = true ∧
      (Path.mk "a/../../.././../b").lexicalAbsolute ⟨"/w//./x"⟩ = ⟨"/b"⟩ ∧
      ((Path.mk "a/../../.././../b").join ⟨"../../c/."⟩).lexicalAbsolute ⟨"/w//./x"⟩ = ⟨"/c"⟩ := by
  have hbase : (Path.mk "/w//./x").isAbsolute = true := by decide
  have hfirst : (Path.mk "a/../../.././../b").lexicalAbsolute ⟨"/w//./x"⟩ = ⟨"/b"⟩ := by decide +kernel
  refine ⟨hbase, hfirst, ?_⟩
  rw [(lexicalAbsolute_composes _ hbase _ _).2.2.2, hfirst]
  decide +kernel

end LexicalAbsolute

end BreakpointProps.Path
