import BreakpointProps.Config
import BreakpointProps.Element.Factory

/-!
The factory that is bound, and the patch that puts it behind a fold. A patch can be undone once, by
anyone or by its handle; a handle whose patch is no longer in force does nothing.
-/

namespace BreakpointProps

/-- A patch in force: what was bound before it, and the number of the patch. -/
structure Patch where
  before : Factory
  generation : Nat
  deriving Inhabited

/-- The bound factory. -/
structure Binding where
  factory : Factory
  patch? : Option Patch := none
  /-- The number of patches so far. -/
  generation : Nat := 0
  deriving Inhabited

/-- What undoes one patch. -/
structure PatchHandle where
  generation : Nat
  deriving DecidableEq, Repr, Inhabited

/-- What an operation on a binding returns, and what it reports. -/
structure Binding.Step (α : Type) where
  result : α
  binding : Binding
  entries : List LogEntry := []
  deriving Inhabited

namespace Binding

/-- A factory without a patch. -/
def ofFactory (factory : Factory) : Binding := { factory }

def isPatched (binding : Binding) : Bool := binding.patch?.isSome

/-- Bind another factory. It does not touch the patch in force. -/
def bind (binding : Binding) (factory : Factory) : Binding := { binding with factory }

/-- Make an element with the bound factory. How the elements are made that the factory asks for within it is
left open: it asks the binding again, to any depth. -/
def create (binding : Binding) (within : Making) : Making := binding.factory.make within

/-- Put the bound factory behind a fold, unless a patch is in force. -/
def patch (binding : Binding) : Step (Option PatchHandle) :=
  if binding.isPatched then
    { result := none, binding, entries := [{ level := .debug, message := "element factory already patched" }] }
  else
    let generation := binding.generation + 1
    { result := some ⟨generation⟩
      binding :=
        { factory := binding.factory.behindFold (.patch generation)
          patch? := some ⟨binding.factory, generation⟩, generation }
      entries :=
        [{ level := .debug, message := "patched element factory"
           fields := [("generation", toString generation)] }] }

/-- Undo the patch in force, if there is one. -/
def unpatch (binding : Binding) : Step Bool :=
  match binding.patch? with
  | none => { result := false, binding }
  | some patch =>
    { result := true
      binding := { binding with factory := patch.before, patch? := none }
      entries :=
        [{ level := .debug, message := "restored element factory"
           fields := [("generation", toString patch.generation)] }] }

/-- Undo the patch of a handle, if it is still in force. -/
def release (binding : Binding) (handle : PatchHandle) : Step Bool :=
  if binding.patch?.map Patch.generation == some handle.generation then binding.unpatch
  else { result := false, binding }

/-- Patch for a program that only wants to be sure of it. Its developers are told. -/
def install (binding : Binding) (mode : Mode) : Step Bool :=
  let step := binding.patch
  let installed := step.result.isSome
  let notice : List LogEntry :=
    if installed && mode.isDevelopment then
      [{ level := .info, message := "[breezy-css] Runtime mode active" }]
    else []
  { result := installed, binding := step.binding, entries := step.entries ++ notice }

end Binding

end BreakpointProps
