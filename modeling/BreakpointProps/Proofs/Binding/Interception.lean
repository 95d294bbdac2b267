import BreakpointProps.Proofs.Binding.History

/-!
Whether the bound factory folds. A patch puts the bound factory behind a fold, but binding a factory
does not touch the patch: whoever binds another factory after a patch takes the fold away, and the
patch stays in force all the same.
-/

namespace BreakpointProps.Binding

/-- The factory that was bound last, if that was after the last patch and the last undo. -/
def boundSince? : List Event → Option Factory
  | [] => none
  | e :: earlier =>
    match e.operation with
    | .bind factory => some factory
    | _ => if e.undoes || e.handle?.isSome then none else boundSince? earlier

/-- The factories that came from outside: the one at the start and all that were bound. -/
def given (start : Factory) : List Event → List Factory
  | [] => [start]
  | e :: earlier =>
    match e.operation with
    | .bind factory => factory :: given start earlier
    | _ => given start earlier

section Given

variable {start : Factory} {e : Event} {earlier : List Event}

theorem mem_given_cons {factory : Factory} (hmem : factory ∈ given start earlier) :
    factory ∈ given start (e :: earlier) := by
  rw [given]
  split
  · exact List.mem_cons_of_mem _ hmem
  · exact hmem

end Given

/-- Make an element down to some depth: the elements within it are made with the bound factory too, and what lies
deeper in a given way. -/
def createTo (binding : Binding) (deeper : Making) : Nat → Making
  | 0 => deeper
  | depth + 1 => binding.create (binding.createTo deeper depth)

section History

variable {start : Factory} {history : List Event}

/-- A patch puts what was bound before it behind a fold of its own. -/
theorem IsHistory.after_of_inForce? (hhistory : IsHistory start history) {p : Event}
    (hforce : inForce? history = some p) :
    ∃ handle, p.handle? = some handle ∧
      p.after.factory = p.before.factory.behindFold (.patch handle.generation) := by
  induction hhistory with
  | nil => exact absurd hforce (by simp [inForce?])
  | @cons earlier _ operation _ ih =>
      have heffect := effect_event (ending start earlier) operation
      generalize (ending start earlier).event operation = e at heffect hforce
      cases heffect with
      | patches hfree =>
          rw [inForce?_cons_of_handle rfl] at hforce
          obtain rfl := Option.some.inj hforce
          exact ⟨_, rfl, rfl⟩
      | undoes hpatch hoperation =>
          rw [inForce?_cons_of_undoes rfl] at hforce
          exact absurd hforce (by simp)
      | refuses hpatch => exact ih (by rwa [inForce?_cons_of_neither rfl rfl] at hforce)
      | misses hoperation => exact ih (by rwa [inForce?_cons_of_neither rfl rfl] at hforce)
      | binds factory => exact ih (by rwa [inForce?_cons_of_neither rfl rfl] at hforce)
      | creates within kind props children =>
          exact ih (by rwa [inForce?_cons_of_neither rfl rfl] at hforce)

/-- While a patch is in force its fold is bound, or what was bound last since. -/
theorem IsHistory.factory_of_inForce? (hhistory : IsHistory start history) {p : Event}
    (hforce : inForce? history = some p) :
    (ending start history).factory = (boundSince? history).getD p.after.factory := by
  induction hhistory with
  | nil => exact absurd hforce (by simp [inForce?])
  | @cons earlier _ operation _ ih =>
      rw [ending]
      have heffect := effect_event (ending start earlier) operation
      generalize (ending start earlier).event operation = e at heffect hforce ⊢
      cases heffect with
      | patches hfree =>
          rw [inForce?_cons_of_handle rfl] at hforce
          obtain rfl := Option.some.inj hforce
          rfl
      | undoes hpatch hoperation =>
          rw [inForce?_cons_of_undoes rfl] at hforce
          exact absurd hforce (by simp)
      | binds factory => rfl
      | refuses hpatch =>
          rw [inForce?_cons_of_neither rfl rfl] at hforce
          exact ih hforce
      | misses hoperation =>
          rw [inForce?_cons_of_neither rfl rfl] at hforce
          rcases hoperation with ⟨rfl, _⟩ | ⟨handle, rfl, _⟩ <;> exact ih hforce
      | creates within kind props children =>
          rw [inForce?_cons_of_neither rfl rfl] at hforce
          exact ih hforce

/-- What is bound without a patch in force came from outside, and so did what was bound before the patch
in force. -/
theorem IsHistory.mem_given (hhistory : IsHistory start history) :
    (inForce? history = none → (ending start history).factory ∈ given start history) ∧
      ∀ p, inForce? history = some p → p.before.factory ∈ given start history := by
  induction hhistory with
  | nil => simp [inForce?, given, ending, ofFactory]
  | @cons earlier hearlier operation _ ih =>
      have htracks := hearlier.tracks
      have heffect := effect_event (ending start earlier) operation
      rw [ending]
      generalize (ending start earlier).event operation = e at heffect ⊢
      have hkept : e.handle? = none → e.undoes = false → e.after = ending start earlier →
          (inForce? (e :: earlier) = none → e.after.factory ∈ given start (e :: earlier)) ∧
            ∀ p, inForce? (e :: earlier) = some p → p.before.factory ∈ given start (e :: earlier) := by
        intro hhandle hundoes hafter
        rw [inForce?_cons_of_neither hhandle hundoes, hafter]
        exact ⟨fun hnone => mem_given_cons (ih.1 hnone), fun p hp => mem_given_cons (ih.2 p hp)⟩
      cases heffect with
      | patches hfree =>
          rw [inForce?_cons_of_handle rfl]
          refine ⟨by simp, ?_⟩
          rintro p hforce
          obtain rfl := Option.some.inj hforce
          exact ih.1 (htracks.patch?_eq_none_iff.mp hfree)
      | undoes hpatch hoperation =>
          obtain ⟨p, hforce, hbefore, _⟩ := htracks.patch?_eq_some_iff.mp hpatch
          rw [inForce?_cons_of_undoes rfl]
          refine ⟨?_, by simp⟩
          intro _
          rw [← hbefore]
          exact mem_given_cons (ih.2 p hforce)
      | binds factory =>
          rw [inForce?_cons_of_neither rfl rfl]
          exact ⟨fun _ => List.mem_cons_self, fun p hp => mem_given_cons (ih.2 p hp)⟩
      | refuses hpatch => exact hkept rfl rfl rfl
      | misses hoperation => exact hkept rfl rfl rfl
      | creates within kind props children => exact hkept rfl rfl rfl

/-- The flag of the binding is the patch in force. -/
theorem IsHistory.isPatched_iff (hhistory : IsHistory start history) :
    (ending start history).isPatched = true ↔ (inForce? history).isSome := by
  rw [isPatched, Option.isSome_iff_ne_none, Option.isSome_iff_ne_none, ne_eq, ne_eq,
    hhistory.tracks.patch?_eq_none_iff]

/-- The flag says that a patch is in force. The fold of that patch is then bound, unless another factory
was bound since the patch: then it is the one that was bound last. Elements are folded while the fold
is bound, those that a factory has made within others as well as these, at every depth; without a patch in
force the values of each reach, as they are, a factory that came from outside. -/
theorem isPatched_unless_rebound (hhistory : IsHistory start history) :
    ((ending start history).isPatched = true ↔ (inForce? history).isSome) ∧
    (∀ p, inForce? history = some p →
      (ending start history).factory = (boundSince? history).getD p.after.factory) ∧
    ((∃ p, inForce? history = some p ∧ (ending start history).factory = p.after.factory) ↔
      (ending start history).isPatched = true ∧
        ∀ p factory, inForce? history = some p → boundSince? history = some factory →
          factory = p.after.factory) ∧
    (∀ p, inForce? history = some p → (ending start history).factory = p.after.factory →
      ∀ deeper depth kind props children,
        (ending start history).create ((ending start history).createTo deeper depth) kind props children =
          p.before.factory.make ((ending start history).createTo deeper depth) kind (props.map Props.folded)
            children) ∧
    ((ending start history).isPatched = false →
      (ending start history).factory ∈ given start history ∧
      ∀ deeper depth kind props children,
        (ending start history).create ((ending start history).createTo deeper depth) kind props children =
          (ending start history).factory.make ((ending start history).createTo deeper depth) kind props
            children) := by
  refine ⟨hhistory.isPatched_iff, fun p => hhistory.factory_of_inForce?, ?_, ?_, ?_⟩
  · rw [hhistory.isPatched_iff]
    constructor
    · rintro ⟨p, hforce, hfold⟩
      refine ⟨by rw [hforce]; rfl, ?_⟩
      intro q factory hq hsince
      obtain rfl := Option.some.inj (hforce.symm.trans hq)
      rw [← hfold, hhistory.factory_of_inForce? hforce, hsince, Option.getD_some]
    · rintro ⟨hsome, hsince⟩
      obtain ⟨p, hforce⟩ := Option.isSome_iff_exists.mp hsome
      refine ⟨p, hforce, ?_⟩
      rw [hhistory.factory_of_inForce? hforce]
      cases hbound : boundSince? history with
      | none => rfl
      | some factory => exact hsince p factory hforce hbound
  · intro p hforce hfold deeper depth kind props children
    obtain ⟨handle, _, hbehind⟩ := hhistory.after_of_inForce? hforce
    rw [create, hfold, hbehind]
    rfl
  · intro hflag
    refine ⟨hhistory.mem_given.1 ?_, fun deeper depth kind props children => rfl⟩
    rw [← Option.not_isSome_iff_eq_none, ← hhistory.isPatched_iff, hflag]
    exact Bool.false_ne_true

/-- A factory that has an element of another kind made within each element. -/
def wrapping (inner : String) : Factory where
  identity := .given 2
  make within kind props children :=
    if kind = inner then Factory.plain kind props children
    else Factory.plain kind props (.element (within inner props []) :: children)

/-- The fold of a patch is read off the binding, replaced by another factory and bound again. The values of an
element and of the one that is made within it are folded. -/
theorem isPatched_unless_rebound_twice :
    ∃ history p, IsHistory (wrapping "i") history ∧ inForce? history = some p ∧
      (ending (wrapping "i") history).factory = p.after.factory ∧
      ∀ deeper props,
        (ending (wrapping "i") history).createTo deeper 2 "b" props [] =
          .mk "b" ((props.map Props.folded).getD {})
            [.element (.mk "i" (((props.map Props.folded).map Props.folded).getD {}) [])] := by
  have hstart : IsHistory (wrapping "i") [] := .nil
  have hpatched := hstart.cons .patch (by simp)
  have hother := hpatched.cons (.bind (.standard 1)) (by simp)
  have hfold := hother.cons (.bind (ofFactory (wrapping "i")).patch.binding.factory) (by simp)
  obtain ⟨_, _, hiff, hcreate, _⟩ := isPatched_unless_rebound hfold
  have hbound := hiff.mpr ⟨rfl, fun p factory hforce hsince => by
    obtain rfl := Option.some.inj hforce
    obtain rfl := Option.some.inj hsince
    rfl⟩
  obtain ⟨p, hforce, hfactory⟩ := hbound
  refine ⟨_, p, hfold, hforce, hfactory, ?_⟩
  intro deeper props
  have houter := hcreate p hforce hfactory deeper 1 "b" props []
  have hinner := hcreate p hforce hfactory deeper 0 "i" (props.map Props.folded) []
  obtain rfl := Option.some.inj hforce
  exact houter.trans (congrArg (fun element => Element.mk "b" _ [.element element]) hinner)

/-- A patch, after which another factory is bound. -/
def rebinding : List Event :=
  let patched := (ofFactory (.standard 0)).event .patch
  [patched.after.event (.bind (.standard 1)), patched]

/-- Here the flag says that a patch is in force, but its fold is not what is bound, and an element keeps
the value of its breakpoint. -/
theorem isPatched_rebinding :
    IsHistory (.standard 0) rebinding ∧ (ending (.standard 0) rebinding).isPatched = true ∧
      (∃ p, inForce? rebinding = some p ∧
        (ending (.standard 0) rebinding).factory.sameAs p.after.factory = false) ∧
      ∀ within, ((ending (.standard 0) rebinding).create within "div" (some (.ofList [("md", .string "flex")]))
        []).props.get? "md" = some (.string "flex") := by
  refine ⟨?_, rfl, ⟨_, rfl, rfl⟩, fun _ => rfl⟩
  exact (IsHistory.nil.cons .patch (by simp)).cons (.bind (.standard 1)) (by simp)

end History

end BreakpointProps.Binding
