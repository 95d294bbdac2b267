import Mathlib.Data.List.Nodup
import Mathlib.Data.List.Range
import BreakpointProps.Element.Binding

/-!
What is done with a binding, one operation after the other. A history is told by its answers alone: a
patch is in force from the moment it hands out a handle until something is undone. The binding keeps
up with that, for any number of patches, handles and factories.
-/

namespace BreakpointProps.Binding

/-- What can be done with a binding. -/
inductive Operation where
  | patch
  | unpatch
  | release (handle : PatchHandle)
  | bind (factory : Factory)
  | create (within : Making) (kind : String) (props : Option Props) (children : List Child)

/-- What an operation answers. -/
inductive Answer where
  /-- The handle of a patch, unless it was refused. -/
  | handle (handle : Option PatchHandle)
  | undone (done : Bool)
  | bound
  | element (element : Element)

/-- An operation with its answer, and the binding before and after it. -/
structure Event where
  before : Binding
  operation : Operation
  answer : Answer
  after : Binding

/-- An operation on a binding. -/
def event (binding : Binding) (operation : Operation) : Event :=
  match operation with
  | .patch => ⟨binding, operation, .handle binding.patch.result, binding.patch.binding⟩
  | .unpatch => ⟨binding, operation, .undone binding.unpatch.result, binding.unpatch.binding⟩
  | .release handle =>
    ⟨binding, operation, .undone (binding.release handle).result, (binding.release handle).binding⟩
  | .bind factory => ⟨binding, operation, .bound, binding.bind factory⟩
  | .create within kind props children =>
    ⟨binding, operation, .element (binding.create within kind props children), binding⟩

namespace Event

/-- The handle that was handed out. -/
def handle? (e : Event) : Option PatchHandle :=
  match e.answer with
  | .handle handle => handle
  | _ => none

/-- Was something undone? -/
def undoes (e : Event) : Bool := e.answer matches .undone true

end Event

/-- The handles that were handed out in a history. Histories start with what happened last. -/
def handles (history : List Event) : List PatchHandle := history.filterMap Event.handle?

/-- The patch in force after a history: the last one, if nothing was undone since. -/
def inForce? : List Event → Option Event
  | [] => none
  | e :: earlier =>
    if e.undoes then none else if e.handle?.isSome then some e else inForce? earlier

/-- The handles of the patches that were undone in a history. -/
def undone : List Event → List PatchHandle
  | [] => []
  | e :: earlier =>
    (if e.undoes then ((inForce? earlier).bind Event.handle?).toList else []) ++ undone earlier

/-- The binding after a history that starts with a factory. -/
def ending (start : Factory) : List Event → Binding
  | [] => ofFactory start
  | e :: _ => e.after

/-- What can happen to a binding. Only handles that were handed out can be released. -/
inductive IsHistory (start : Factory) : List Event → Prop where
  | nil : IsHistory start []
  | cons {history : List Event} (hhistory : IsHistory start history) (operation : Operation)
    (hown : ∀ handle, operation = .release handle → handle ∈ handles history) :
    IsHistory start ((ending start history).event operation :: history)

/-- All that an operation can do. -/
inductive Effect (binding : Binding) : Event → Prop where
  | patches (hfree : binding.patch? = none) :
    Effect binding
      ⟨binding, .patch, .handle (some ⟨binding.generation + 1⟩),
        { factory := binding.factory.behindFold (.patch (binding.generation + 1))
          patch? := some ⟨binding.factory, binding.generation + 1⟩
          generation := binding.generation + 1 }⟩
  | refuses {patch : Patch} (hpatch : binding.patch? = some patch) :
    Effect binding ⟨binding, .patch, .handle none, binding⟩
  | undoes {patch : Patch} {operation : Operation} (hpatch : binding.patch? = some patch)
    (hoperation : operation = .unpatch ∨ operation = .release ⟨patch.generation⟩) :
    Effect binding
      ⟨binding, operation, .undone true, { binding with factory := patch.before, patch? := none }⟩
  | misses {operation : Operation}
    (hoperation : (operation = .unpatch ∧ binding.patch? = none) ∨
      ∃ handle : PatchHandle, operation = .release handle ∧
        binding.patch?.map Patch.generation ≠ some handle.generation) :
    Effect binding ⟨binding, operation, .undone false, binding⟩
  | binds (factory : Factory) :
    Effect binding ⟨binding, .bind factory, .bound, { binding with factory }⟩
  | creates (within : Making) (kind : String) (props : Option Props) (children : List Child) :
    Effect binding
      ⟨binding, .create within kind props children, .element (binding.create within kind props children), binding⟩

theorem effect_event (binding : Binding) (operation : Operation) :
    Effect binding (binding.event operation) := by
  cases operation with
  | patch =>
      cases hpatch : binding.patch? with
      | none => simpa [event, patch, isPatched, hpatch] using Effect.patches hpatch
      | some found => simpa [event, patch, isPatched, hpatch] using Effect.refuses hpatch
  | unpatch =>
      cases hpatch : binding.patch? with
      | none => simpa [event, unpatch, hpatch] using Effect.misses (Or.inl ⟨rfl, hpatch⟩)
      | some found => simpa [event, unpatch, hpatch] using Effect.undoes hpatch (Or.inl rfl)
  | release handle =>
      by_cases hown : binding.patch?.map Patch.generation = some handle.generation
      · obtain ⟨found, hpatch, hgeneration⟩ := Option.map_eq_some_iff.mp hown
        have hhandle : handle = ⟨found.generation⟩ := by rw [hgeneration]
        simpa [event, release, unpatch, hpatch, hgeneration] using
          Effect.undoes hpatch (Or.inr (congrArg Operation.release hhandle))
      · simpa [event, release, hown] using Effect.misses (Or.inr ⟨handle, rfl, hown⟩)
  | bind factory => exact Effect.binds factory
  | create within kind props children => exact Effect.creates within kind props children

section Facts

variable {e : Event} {earlier : List Event}

theorem inForce?_cons_of_handle {handle : PatchHandle} (hhandle : e.handle? = some handle) :
    inForce? (e :: earlier) = some e := by
  have hundoes : e.undoes = false := by
    cases hanswer : e.answer <;> simp_all [Event.handle?, Event.undoes]
  simp [inForce?, hundoes, hhandle]

theorem inForce?_cons_of_undoes (hundoes : e.undoes = true) : inForce? (e :: earlier) = none := by
  simp [inForce?, hundoes]

theorem inForce?_cons_of_neither (hhandle : e.handle? = none) (hundoes : e.undoes = false) :
    inForce? (e :: earlier) = inForce? earlier := by
  simp [inForce?, hundoes, hhandle]

/-- The patch in force is the one that handed out the last handle. -/
theorem handle?_of_inForce? {history : List Event} {p : Event} (hforce : inForce? history = some p) :
    ∃ handle, p.handle? = some handle ∧ (handles history).head? = some handle := by
  induction history with
  | nil => exact absurd hforce (by simp [inForce?])
  | cons e earlier ih =>
      rw [inForce?] at hforce
      split at hforce
      · exact absurd hforce (by simp)
      · split at hforce
        · rename_i hhandle
          obtain rfl := Option.some.inj hforce
          obtain ⟨handle, hhandle⟩ := Option.isSome_iff_exists.mp hhandle
          exact ⟨handle, hhandle, by simp [handles, hhandle]⟩
        · rename_i hnone
          obtain ⟨handle, hhandle, hhead⟩ := ih hforce
          refine ⟨handle, hhandle, ?_⟩
          rw [Bool.not_eq_true, Option.isSome_eq_false_iff, Option.isNone_iff_eq_none] at hnone
          simpa [handles, hnone] using hhead

/-- Only patches that handed out a handle are undone. -/
theorem mem_handles_of_mem_undone {history : List Event} {handle : PatchHandle}
    (hundone : handle ∈ undone history) : handle ∈ handles history := by
  induction history with
  | nil => exact absurd hundone (by simp [undone])
  | cons e earlier ih =>
      have hlater : ∀ h, h ∈ handles earlier → h ∈ handles (e :: earlier) := by
        intro h hmem
        exact ((List.sublist_cons_self e earlier).filterMap _).subset hmem
      rw [undone, List.mem_append] at hundone
      rcases hundone with hhere | hbefore
      · apply hlater
        split at hhere
        · rw [Option.mem_toList, Option.bind_eq_some_iff] at hhere
          obtain ⟨p, hforce, hhandle⟩ := hhere
          obtain ⟨found, hfound, hhead⟩ := handle?_of_inForce? hforce
          obtain rfl := Option.some.inj (hfound.symm.trans hhandle)
          exact List.mem_of_head? hhead
        · exact absurd hhere (by simp)
      · exact hlater _ (ih hbefore)

end Facts

/-- The binding knows what its history says: which patch is in force and what was bound before it. The
handles are numbered in the order in which they were handed out. -/
structure Tracks (binding : Binding) (history : List Event) : Prop where
  patch? : binding.patch? =
    (inForce? history).bind fun p => p.handle?.map fun handle => ⟨p.before.factory, handle.generation⟩
  generations : (handles history).map PatchHandle.generation = (List.range' 1 binding.generation).reverse

namespace Tracks

variable {binding : Binding} {history : List Event}

/-- There is a patch in force if the binding has one, and then they are the same. -/
theorem patch?_eq_some_iff (htracks : Tracks binding history) {patch : Patch} :
    binding.patch? = some patch ↔
      ∃ p, inForce? history = some p ∧ p.before.factory = patch.before ∧
        p.handle? = some ⟨patch.generation⟩ := by
  rw [htracks.patch?, Option.bind_eq_some_iff]
  constructor
  · rintro ⟨p, hforce, hpatch⟩
    obtain ⟨handle, hhandle, rfl⟩ := Option.map_eq_some_iff.mp hpatch
    exact ⟨p, hforce, rfl, hhandle⟩
  · rintro ⟨p, hforce, hbefore, hhandle⟩
    exact ⟨p, hforce, by rw [hhandle, Option.map_some, hbefore]⟩

theorem patch?_eq_none_iff (htracks : Tracks binding history) :
    binding.patch? = none ↔ inForce? history = none := by
  rw [htracks.patch?]
  cases hforce : inForce? history with
  | none => simp
  | some p =>
      obtain ⟨handle, hhandle, _⟩ := handle?_of_inForce? hforce
      simp [hhandle]

theorem map_generation_patch? (htracks : Tracks binding history) (handle : PatchHandle) :
    binding.patch?.map Patch.generation = some handle.generation ↔
      (inForce? history).bind Event.handle? = some handle := by
  rw [Option.map_eq_some_iff, Option.bind_eq_some_iff]
  constructor
  · rintro ⟨patch, hpatch, hgeneration⟩
    obtain ⟨p, hforce, _, hhandle⟩ := htracks.patch?_eq_some_iff.mp hpatch
    exact ⟨p, hforce, by rw [hhandle, hgeneration]⟩
  · rintro ⟨p, hforce, hhandle⟩
    exact ⟨⟨p.before.factory, handle.generation⟩,
      htracks.patch?_eq_some_iff.mpr ⟨p, hforce, rfl, hhandle⟩, rfl⟩

/-- A history without events is known to a binding without a patch. -/
theorem nil (start : Factory) : Tracks (ofFactory start) [] := ⟨rfl, rfl⟩

/-- What happens to neither a patch nor the number of patches leaves the binding informed. -/
theorem cons_of_neither (htracks : Tracks binding history) {e : Event} (hhandle : e.handle? = none)
    (hundoes : e.undoes = false) (hpatch : e.after.patch? = binding.patch?)
    (hgeneration : e.after.generation = binding.generation) : Tracks e.after (e :: history) where
  patch? := by rw [hpatch, inForce?_cons_of_neither hhandle hundoes, htracks.patch?]
  generations := by
    rw [hgeneration, ← htracks.generations]
    simp [handles, hhandle]

/-- One operation keeps the binding informed. -/
theorem step (htracks : Tracks binding history) {e : Event} (heffect : Effect binding e) :
    Tracks e.after (e :: history) := by
  cases heffect with
  | patches hfree =>
      constructor
      · rw [inForce?_cons_of_handle rfl]
        rfl
      · rw [List.range'_concat, List.reverse_append, ← htracks.generations]
        simp [handles, Event.handle?, Nat.add_comm]
  | refuses hpatch => exact htracks.cons_of_neither rfl rfl rfl rfl
  | undoes hpatch hoperation =>
      constructor
      · rw [inForce?_cons_of_undoes rfl]
        rfl
      · exact htracks.generations
  | misses hoperation => exact htracks.cons_of_neither rfl rfl rfl rfl
  | binds factory => exact htracks.cons_of_neither rfl rfl rfl rfl
  | creates within kind props children => exact htracks.cons_of_neither rfl rfl rfl rfl

/-- The handles of a history all differ. -/
theorem nodup (htracks : Tracks binding history) :
    ((handles history).map PatchHandle.generation).Nodup := by
  rw [htracks.generations, List.nodup_reverse]
  exact List.nodup_range'

/-- The number of a patch to come is not taken. -/
theorem not_mem_handles (htracks : Tracks binding history) :
    ⟨binding.generation + 1⟩ ∉ handles history := by
  intro hmem
  have hgeneration : binding.generation + 1 ∈ (handles history).map PatchHandle.generation :=
    List.mem_map_of_mem hmem
  rw [htracks.generations, List.mem_reverse, List.mem_range'_1] at hgeneration
  omega

end Tracks

section History

variable {start : Factory} {history : List Event}

theorem IsHistory.uncons {e : Event} {earlier : List Event} (hhistory : IsHistory start (e :: earlier)) :
    IsHistory start earlier ∧ Effect (ending start earlier) e := by
  cases hhistory with
  | cons hearlier operation hown => exact ⟨hearlier, effect_event _ operation⟩

/-- What happened first happened as well. -/
theorem IsHistory.of_suffix {earlier : List Event} (hhistory : IsHistory start history)
    (hsuffix : earlier <:+ history) : IsHistory start earlier := by
  induction hhistory with
  | nil =>
      rw [List.suffix_nil.mp hsuffix]
      exact .nil
  | cons hbefore operation hown ih =>
      rcases List.suffix_cons_iff.mp hsuffix with rfl | hsuffix
      · exact .cons hbefore operation hown
      · exact ih hsuffix

/-- At any time the binding knows what its history says. -/
theorem IsHistory.tracks (hhistory : IsHistory start history) :
    Tracks (ending start history) history := by
  induction hhistory with
  | nil => exact Tracks.nil start
  | cons _ operation _ ih => exact ih.step (effect_event _ operation)

/-- No patch is undone twice, and the one in force was not undone. -/
theorem IsHistory.nodup_undone (hhistory : IsHistory start history) :
    (undone history).Nodup ∧
      ∀ handle, (inForce? history).bind Event.handle? = some handle → handle ∉ undone history := by
  induction hhistory with
  | nil => simp [undone, inForce?]
  | @cons earlier hearlier operation hown ih =>
      have htracks := hearlier.tracks
      have hkept : ∀ e : Event, e.handle? = none → e.undoes = false →
          (undone (e :: earlier)).Nodup ∧
            ∀ handle, (inForce? (e :: earlier)).bind Event.handle? = some handle →
              handle ∉ undone (e :: earlier) := by
        intro e hhandle hundoes
        rw [inForce?_cons_of_neither hhandle hundoes, undone, hundoes]
        exact ih
      have heffect := effect_event (ending start earlier) operation
      generalize (ending start earlier).event operation = e at heffect ⊢
      cases heffect with
      | patches hfree =>
          rw [inForce?_cons_of_handle rfl]
          refine ⟨ih.1, ?_⟩
          intro handle hhandle hundone
          obtain rfl := Option.some.inj hhandle
          exact htracks.not_mem_handles (mem_handles_of_mem_undone hundone)
      | undoes hpatch hoperation =>
          rw [inForce?_cons_of_undoes rfl]
          refine ⟨?_, by simp⟩
          obtain ⟨p, hforce, _, hhandle⟩ := htracks.patch?_eq_some_iff.mp hpatch
          have hfresh := ih.2 _ (by rw [hforce, Option.bind_some, hhandle])
          simpa [undone, Event.undoes, hforce, hhandle] using ⟨hfresh, ih.1⟩
      | refuses hpatch => exact hkept _ rfl rfl
      | misses hoperation => exact hkept _ rfl rfl
      | binds factory => exact hkept _ rfl rfl
      | creates within kind props children => exact hkept _ rfl rfl

/-- Whatever is done with a binding: a patch hands out a handle exactly when none is in force. A handle
undoes its own patch if that is the one in force and else changes nothing at all. What is undone is
the patch in force, never for a second time, and bound again is what was bound right before it. No two
handles have one number, and the patch in force has the latest. -/
theorem patches_undone_once (hhistory : IsHistory start history) :
    (∀ e earlier, e :: earlier <:+ history →
      (e.operation = .patch → (e.handle?.isSome ↔ inForce? earlier = none)) ∧
      (e.operation = .unpatch → (e.undoes = true ↔ (inForce? earlier).isSome)) ∧
      (∀ handle, e.operation = .release handle →
        (e.undoes = true ↔ (inForce? earlier).bind Event.handle? = some handle) ∧
        (e.undoes = false → e.after = e.before)) ∧
      (e.undoes = true →
        ∃ p, inForce? earlier = some p ∧ e.after.factory = p.before.factory)) ∧
    ((handles history).map PatchHandle.generation).Nodup ∧
    (∀ patch, (ending start history).patch? = some patch →
      (handles history).head? = some ⟨patch.generation⟩) ∧
    (undone history).Nodup := by
  refine ⟨?_, hhistory.tracks.nodup, ?_, hhistory.nodup_undone.1⟩
  · intro e earlier hsuffix
    obtain ⟨hearlier, heffect⟩ := (hhistory.of_suffix hsuffix).uncons
    have htracks := hearlier.tracks
    cases heffect with
    | patches hfree => simpa [Event.handle?, Event.undoes] using htracks.patch?_eq_none_iff.mp hfree
    | refuses hpatch =>
        obtain ⟨p, hforce, _⟩ := htracks.patch?_eq_some_iff.mp hpatch
        simp [Event.handle?, Event.undoes, hforce]
    | @undoes patch operation hpatch hoperation =>
        obtain ⟨p, hforce, hbefore, hhandle⟩ := htracks.patch?_eq_some_iff.mp hpatch
        rcases hoperation with rfl | rfl
        · simp [Event.undoes, hforce, hbefore]
        · simp [Event.undoes, hforce, hbefore, hhandle]
    | misses hoperation =>
        rcases hoperation with ⟨rfl, hfree⟩ | ⟨handle, rfl, hother⟩
        · simp [Event.undoes, htracks.patch?_eq_none_iff.mp hfree]
        · rw [ne_eq, htracks.map_generation_patch?] at hother
          simpa [Event.undoes] using hother
    | binds factory => simp [Event.undoes]
    | creates within kind props children => simp [Event.undoes]
  · intro patch hpatch
    obtain ⟨p, hforce, _, hhandle⟩ := hhistory.tracks.patch?_eq_some_iff.mp hpatch
    obtain ⟨found, hfound, hhead⟩ := handle?_of_inForce? hforce
    rw [hhead, ← hfound, hhandle]

/-- After a patch, a rebinding, an undo and a second patch, the handle of the first patch is released. -/
theorem patches_undone_once_stale :
    ∃ e earlier, IsHistory (.standard 0) (e :: earlier) ∧ e.operation = .release ⟨1⟩ ∧
      (inForce? earlier).bind Event.handle? = some ⟨2⟩ ∧ e.undoes = false ∧ e.after = e.before ∧
      undone (e :: earlier) = [⟨1⟩] ∧ (undone (e :: earlier)).Nodup := by
  have hstart : IsHistory (.standard 0) [] := .nil
  have hpatched := hstart.cons .patch (by simp)
  have hbound := hpatched.cons (.bind (.standard 1)) (by simp)
  have hundone := hbound.cons .unpatch (by simp)
  have hagain := hundone.cons .patch (by simp)
  have hreleased := hagain.cons (.release ⟨1⟩) (by
    intro handle hhandle
    obtain rfl := Operation.release.inj hhandle
    decide)
  have hresult := patches_undone_once hreleased
  have hstale := (hresult.1 _ _ (List.suffix_refl _)).2.2.1 ⟨1⟩ rfl
  exact ⟨_, _, hreleased, rfl, rfl, rfl, hstale.2 rfl, rfl, hresult.2.2.2⟩

end History

end BreakpointProps.Binding
