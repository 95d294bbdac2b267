import BreakpointProps.Json.Tree

/-!
Taking values of a certain form out of a tree. Whatever is wrong is told in the order of the text:
a value that is not expected before a flaw of the text behind it.
-/

namespace BreakpointProps.Json

/-- Where a tree comes from. -/
inductive Origin where
  | text
  /-- A value that stands in no text. -/
  | value
  deriving DecidableEq, Repr, Inhabited

namespace Tree

/-- The fault that something else than this value was expected. -/
def mismatch (expected : String) : Tree → Fault
  | null stop => ⟨.invalidType .null expected, stop⟩
  | bool b stop => ⟨.invalidType (.bool b) expected, stop⟩
  | number n _ stop => ⟨.invalidType (.number n) expected, stop⟩
  | string s stop => ⟨.invalidType (.string s) expected, stop⟩
  | array start _ _ => ⟨.invalidType .sequence expected, start⟩
  | object start _ _ => ⟨.invalidType .map expected, start⟩
  | refused .array start ⟨.flaw .tooDeep, _⟩ _ => ⟨.invalidType .sequence expected, start⟩
  | refused .object start ⟨.flaw .tooDeep, _⟩ _ => ⟨.invalidType .map expected, start⟩
  | refused _ _ fault _ => fault

def asBool : Tree → Except Fault Bool
  | bool b _ => .ok b
  | tree => .error (tree.mismatch "a boolean")

def asString : Tree → Except Fault String
  | string s _ => .ok s
  | tree => .error (tree.mismatch "a string")

/-- A natural number of 64 bits. -/
def asNat (type : String) : Tree → Except Fault Nat
  | number (.int n) _ stop =>
    if 0 ≤ n then .ok n.toNat else .error ⟨.invalidValue (.number (.int n)) type, stop⟩
  | tree => .error (tree.mismatch type)

def asOption {α : Type} (decode : Tree → Except Fault α) : Tree → Except Fault (Option α)
  | null _ => .ok none
  | tree => (decode tree).map some

/-- The end of an array or an object, behind its last part. -/
def Ending.settle : Ending → Except Fault Nat
  | .closed stop => .ok stop
  | .cut fault _ => .error fault
  | .badName ahead => .error (ahead.faultAhead .keyNotString)
  | .lost => .ok 0

/-- A list of values of one form. -/
def asList {α : Type} (decode : Slot → Tree → Except Fault α) : Tree → Except Fault (List α)
  | array _ items ending => do
    let list ← items.mapM fun (slot, item) => decode slot item
    let _ ← Ending.settle ending
    return list
  | tree => .error (tree.mismatch "a sequence")

/-- Members of one form, whatever their names. -/
def asMembers {α : Type} (decode : Tree → Except Fault α) : Tree → Except Fault (List (String × α))
  | object _ members ending => do
    let list ← members.mapM fun (key, value) => do return (← key.name, ← decode value)
    let _ ← Ending.settle ending
    return list
  | tree => .error (tree.mismatch "a map")

/-- The fields of a record, in the order in which an array lists them. -/
structure Shape where
  /-- How the record is named where one was expected. -/
  name : String
  fields : List String
  /-- May an array be too short? -/
  isLenient : Bool

/-- The fields of a record given by name, from the left. -/
def foldMembers {σ : Type} (shape : Shape) (store : σ → String → Tree → Except Fault σ) :
    σ → List String → List (Key × Tree) → Except Fault σ
  | state, _, [] => .ok state
  | state, seen, (key, value) :: rest => do
    let name ← match key.name, value.passFault? with
      | .ok name, _ => .ok name
      | .error fault, _ => .error fault
    if !shape.fields.contains name then
      match value.passFault? with
      | some fault => .error fault
      | none => foldMembers shape store state seen rest
    else if seen.contains name then .error ⟨.duplicateField name, key.settled⟩
    else
      let state ← store state name value
      foldMembers shape store state (name :: seen) rest

/-- The fields of a record given by position, from the left, and what is left over of both. -/
def foldItems {σ : Type} (store : σ → String → Tree → Except Fault σ) :
    σ → List String → List (Slot × Tree) → Except Fault (σ × List String × List (Slot × Tree))
  | state, name :: names, (_, value) :: rest => do
    let state ← store state name value
    foldItems store state names rest
  | state, names, items => .ok (state, names, items)

/-- The end of an array that has all it should have. -/
def settleFull (origin : Origin) (count : Nat) (extra : List (Slot × Tree)) (ending : Ending) :
    Except Fault Nat :=
  match origin, extra, ending with
  | .value, _ :: _, _ => .error ⟨.invalidLength count "fewer elements in array", 0⟩
  | .text, (slot, _) :: _, _ => .error ⟨.flaw .trailingCharacters, slot.start + 1⟩
  | _, [], .cut fault _ =>
    match fault.cause with
    | .flaw .trailingComma | .flaw .endInList => .error fault
    | _ => .error ⟨.flaw .trailingCharacters, fault.offset⟩
  | _, [], ending => Ending.settle ending

/-- A record, given by name or by position. The result comes with the end of the record. -/
def asRecord {σ : Type} (origin : Origin) (shape : Shape)
    (store : σ → String → Tree → Except Fault σ) (start : σ) : Tree → Except Fault (σ × Nat)
  | object _ members ending => do
    let state ← foldMembers shape store start [] members
    return (state, ← Ending.settle ending)
  | array _ items ending => do
    let (state, missing, extra) ← foldItems store start shape.fields items
    if missing.isEmpty then return (state, ← settleFull origin items.length extra ending)
    else
      let stop ← Ending.settle ending
      if shape.isLenient then return (state, stop)
      else
        let elements := if shape.fields.length == 1 then "element" else "elements"
        .error ⟨.invalidLength (shape.fields.length - missing.length)
          s!"struct {shape.name} with {shape.fields.length} {elements}", stop⟩
  | tree => .error (tree.mismatch ("struct " ++ shape.name))

/-- A field that a record must have. -/
def required {α : Type} (name : String) (stop : Nat) : Option α → Except Fault α
  | some value => .ok value
  | none => .error ⟨.missingField name, stop⟩

def asName (known : List String) (name : String) (stop : Nat) : Except Fault String :=
  if known.contains name then .ok name else .error ⟨.unknownVariant name known, stop⟩

/-- The null that goes with a name. -/
def asUnit : Tree → Except Fault Unit
  | null _ => .ok ()
  | tree => .error (tree.mismatch "unit")

/-- One of several names in a text: as a string, or as the name of the only member, a null. -/
def asChoiceOfText (known : List String) : Tree → Except Fault String
  | string s stop => asName known s stop
  | object _ [] (.closed stop) => .error ⟨.flaw .expectedValue, stop⟩
  | object _ [] (.badName ahead) =>
    .error ((value (4 * ahead.rest.length + 8) 0 ahead).1.mismatch "variant identifier")
  | object _ [] (.cut fault _) => .error ⟨.flaw .endInValue, fault.offset⟩
  | object _ ((key, held) :: rest) ending => do
    let name ← asName known (← key.name) key.stop
    asUnit held
    match rest, ending with
    | [], .closed _ => return name
    | [], .cut ⟨.flaw .endInObject, offset⟩ _ => .error ⟨.flaw .endInObject, offset⟩
    | _, _ => .error ⟨.flaw .expectedValue, key.next⟩
  | object _ [] .lost => .error ⟨.flaw .expectedValue, 0⟩
  | refused .word start _ _ | refused .number start _ _ | refused .array start _ _ =>
    .error ⟨.flaw .expectedValue, start + 1⟩
  | refused _ _ fault _ => .error fault
  | null stop => .error ⟨.flaw .expectedValue, stop - 3⟩
  | bool b stop => .error ⟨.flaw .expectedValue, if b then stop - 3 else stop - 4⟩
  | number _ start _ => .error ⟨.flaw .expectedValue, start + 1⟩
  | array start _ _ => .error ⟨.flaw .expectedValue, start + 1⟩

/-- One of several names in a value that stands in no text. -/
def asChoiceOfValue (known : List String) : Tree → Except Fault String
  | string s stop => asName known s stop
  | object _ [(key, held)] _ => do
    let name ← asName known (← key.name) key.stop
    asUnit held
    return name
  | object _ _ _ => .error ⟨.invalidValue .map "map with a single key", 0⟩
  | tree => .error (tree.mismatch "string or map")

def asChoice (origin : Origin) (known : List String) (tree : Tree) : Except Fault String :=
  match origin with
  | .text => asChoiceOfText known tree
  | .value => asChoiceOfValue known tree

end Tree

end BreakpointProps.Json
