import BreakpointProps.Json.Fault
import BreakpointProps.Yaml.Scalar

/-!
Taking values of a certain form out of a document. The parts are used up from the left; a document that
breaks off is a fault only if more of it is needed.
-/

namespace BreakpointProps.Yaml

/-- The way from the root of a document to a part of it. -/
inductive Trail where
  | root
  | item (outer : Trail) (index : Nat)
  | member (outer : Trail) (name : String)
  /-- The value for a key that is no scalar. -/
  | unnamed (outer : Trail)
  deriving DecidableEq, Repr, Inhabited

mutual

def Trail.text : Trail → String
  | .root => "."
  | .item outer index => outer.text ++ "[" ++ toString index ++ "]"
  | .member outer name => outer.before ++ name
  | .unnamed outer => outer.before ++ "?"

def Trail.before : Trail → String
  | .root => ""
  | .item outer index => outer.text ++ "[" ++ toString index ++ "]."
  | .member outer name => outer.before ++ name ++ "."
  | .unnamed outer => outer.before ++ "?."

end

/-- What is wrong with a value. -/
inductive Cause where
  | invalidType (found : Found) (expected : String)
  /-- The tag of a scalar asks for something that its text is not. -/
  | invalidValue (text : String) (expected : String)
  | unknownVariant (name : String) (known : List String)
  | duplicateField (name : String)
  deriving Inhabited

def Cause.message : Cause → String
  | invalidType found expected => "invalid type: " ++ found.text ++ ", expected " ++ expected
  | invalidValue text expected => "invalid value: string " ++ Text.quoted text ++ ", expected " ++ expected
  | unknownVariant name known =>
    "unknown variant \x60" ++ name ++ "\x60, expected " ++ Json.alternatives known
  | duplicateField name => "duplicate field \x60" ++ name ++ "\x60"

/-- Why a text does not stand for what it should. -/
inductive Fault where
  | broken (reason : Break)
  | value (cause : Cause) (place : Option (Mark × Trail))
  | manyDocuments
  deriving Inhabited

namespace Fault

def message : Fault → String
  | broken reason => reason.message
  | value cause none => cause.message
  | value cause (some (mark, trail)) =>
    (if trail == .root then "" else trail.text ++ ": ") ++ cause.message ++ mark.suffix
  | manyDocuments => "deserializing from YAML containing more than one document is not supported"

def placedAt (mark : Mark) (trail : Trail) : Fault → Fault
  | value cause none => value cause (some (mark, trail))
  | fault => fault

end Fault

namespace Document

/-- The next part, and those behind it. -/
def next (document : Document) : List Located → Except Fault (Located × List Located)
  | located :: rest => .ok (located, rest)
  | [] => .error (.broken (document.broken.getD (.flaw (.problem .endOfText {} none))))

/-- A value that has been entered. -/
structure Entered where
  part : Part
  mark : Mark
  /-- The parts behind the first one of the value. -/
  inner : List Located
  /-- The parts behind the value if it stands elsewhere, under an anchor. -/
  outer : Option (List Located)

/-- Enter the next value. An alias leads to the value under its anchor. -/
def enter (document : Document) (parts : List Located) : Except Fault Entered := do
  let (located, rest) ← document.next parts
  match located.part with
  | .aliasOf number =>
    let (target, inner) ← document.next (document.parts.drop ((document.anchors.lookup number).getD 0))
    return ⟨target.part, target.mark, inner, some rest⟩
  | part => return ⟨part, located.mark, rest, none⟩

/-- The fault that something else than this value was expected. -/
def mismatch (part : Part) (mark : Mark) (trail : Trail) (expected : String) : Fault :=
  let cause : Cause := match part with
    | .scalar tag text style =>
      match Scalar.value tag text style with
      | .inl found => .invalidType found expected
      | .inr wanted => .invalidValue text wanted
    | .mappingStart _ => .invalidType .mapping expected
    | .sequenceStart _ => .invalidType .sequence expected
    | _ => .invalidType .null expected
  .value cause (some (mark, trail))

def asString (document : Document) (expected : String) (trail : Trail) (parts : List Located) :
    Except Fault (String × List Located) := do
  let entered ← document.enter parts
  match entered.part with
  | .scalar _ text _ => return (text, entered.outer.getD entered.inner)
  | part => .error (mismatch part entered.mark trail expected)

def mayBeBool (tag : Option String) (style : ScalarStyle) : Bool :=
  style == .plain || (style == .literal && tag == some (Scalar.standardTag "bool"))

def asBool (document : Document) (trail : Trail) (parts : List Located) :
    Except Fault (Bool × List Located) := do
  let entered ← document.enter parts
  let fault : Fault := mismatch entered.part entered.mark trail "a boolean"
  match entered.part with
  | .scalar tag text style =>
    match if mayBeBool tag style then Scalar.bool? text else none with
    | some b => return (b, entered.outer.getD entered.inner)
    | none => .error fault
  | _ => .error fault

/-- Is this part as good as an empty collection? -/
def isEmptyCollection : Part → Bool
  | .scalar _ text style => text.isEmpty && style == .plain
  | .void => true
  | _ => false

/-- The items of a sequence that has been entered. -/
def items {α : Type} (decode : Trail → List Located → Except Fault (α × List Located))
    (document : Document) (trail : Trail) :
    Nat → Nat → List Located → Except Fault (List α × List Located)
  | 0, _, parts => .ok ([], parts)
  | fuel + 1, index, parts => do
    let (located, rest) ← document.next parts
    match located.part with
    | .sequenceEnd => return ([], rest)
    | _ =>
      let (item, rest) ← decode (.item trail index) parts
      let (list, rest) ← items decode document trail fuel (index + 1) rest
      return (item :: list, rest)

/-- A list of values of one form. -/
def asList {α : Type} (document : Document)
    (decode : Trail → List Located → Except Fault (α × List Located)) (trail : Trail)
    (parts : List Located) : Except Fault (List α × List Located) := do
  let entered ← document.enter parts
  match entered.part with
  | .sequenceStart _ =>
    let (list, rest) ← items decode document trail (entered.inner.length + 1) 0 entered.inner
    return (list, entered.outer.getD rest)
  | part =>
    if isEmptyCollection part then return ([], entered.outer.getD entered.inner)
    else .error (mismatch part entered.mark trail "a sequence")

/-- Pass over a value. So many collections are open. -/
def skip (document : Document) : Nat → List Located → Except Fault (List Located)
  | depth, located :: rest =>
    match located.part with
    | .sequenceStart _ | .mappingStart _ => skip document (depth + 1) rest
    | .sequenceEnd | .mappingEnd => if depth ≤ 1 then .ok rest else skip document (depth - 1) rest
    | _ => if depth == 0 then .ok rest else skip document depth rest
  | _, [] => do
    let (_, rest) ← document.next []
    return rest

/-- What a tag of its own calls a value. A bare mark is a name as well. -/
def ownTag? : Option String → Option String
  | none => none
  | some tag =>
    match tag.toList with
    | ['!'] => some tag
    | '!' :: name => some (String.ofList name)
    | _ => none

def named (known : List String) (name : String) : Except Fault String :=
  if known.contains name then .ok name else .error (.value (.unknownVariant name known) none)

/-- Nothing, behind a tag that says all. -/
def asUnit (trail : Trail) (entered : Entered) : Except Fault Unit :=
  match entered.part with
  | .scalar _ text style =>
    if style == .plain && (text.isEmpty || Scalar.isNull text) then .ok ()
    else .error (mismatch entered.part entered.mark trail "unit")
  | part => .error (mismatch part entered.mark trail "unit")

/-- One of several names: as a string, or as the tag of nothing. -/
def asChoice (document : Document) (known : List String) (trail : Trail) (parts : List Located) :
    Except Fault (String × List Located) := do
  let entered ← document.enter parts
  let tag? : Option String := match entered.part with
    | .scalar tag _ _ => ownTag? tag
    | .sequenceStart tag => ownTag? tag
    | .mappingStart tag => ownTag? tag
    | _ => none
  match tag?, entered.part with
  | some tag, _ =>
    let name ← named known tag
    asUnit trail entered
    return (name, entered.outer.getD entered.inner)
  | none, .scalar _ text _ =>
    let name ← (named known text).mapError (Fault.placedAt entered.mark trail)
    return (name, entered.outer.getD entered.inner)
  | none, part => .error (mismatch part entered.mark trail "a YAML tag starting with '!'")

/-- The fields of a mapping that has been entered, from the left. -/
def fields {σ : Type} (document : Document) (known : List String)
    (store : σ → String → Trail → List Located → Except Fault (σ × List Located)) (trail : Trail) :
    Nat → σ → List String → List Located → Except Fault (σ × List Located)
  | 0, state, _, parts => .ok (state, parts)
  | fuel + 1, state, seen, parts => do
    let (located, rest) ← document.next parts
    match located.part with
    | .mappingEnd => return (state, rest)
    | _ =>
      let (name, rest) ← document.asString "field identifier" trail parts
      let inner : Trail := match located.part with
        | .scalar .. => .member trail name
        | _ => .unnamed trail
      if !known.contains name then
        let rest ← document.skip 0 rest
        fields document known store trail fuel state seen rest
      else if seen.contains name then .error (.value (.duplicateField name) none)
      else
        let (state, rest) ← store state name inner rest
        fields document known store trail fuel state (name :: seen) rest

/-- A record whose fields may all be missing. -/
def asRecord {σ : Type} (document : Document) (type : String) (known : List String)
    (store : σ → String → Trail → List Located → Except Fault (σ × List Located)) (start : σ)
    (trail : Trail) (parts : List Located) : Except Fault (σ × List Located) := do
  let entered ← document.enter parts
  match entered.part with
  | .mappingStart _ =>
    let (state, rest) ←
      (fields document known store trail (entered.inner.length + 1) start [] entered.inner).mapError
        (Fault.placedAt entered.mark trail)
    return (state, entered.outer.getD rest)
  | part =>
    if isEmptyCollection part then return (start, entered.outer.getD entered.inner)
    else .error (mismatch part entered.mark trail ("struct " ++ type))

end Document

/-- The value that the only document of a text stands for. -/
def decodeText {α : Type} (decode : Document → Trail → List Located → Except Fault (α × List Located))
    (text : String) : Except Fault α := do
  let (document, isFollowed) := Document.ofText text
  let (value, _) ← decode document .root document.parts
  match document.broken with
  | some reason => .error (.broken reason)
  | none => if isFollowed then .error .manyDocuments else return value

end BreakpointProps.Yaml
