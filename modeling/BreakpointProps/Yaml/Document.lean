import BreakpointProps.Yaml.Event

/-!
The first document of a YAML text. A document may break off; what comes before that can be used all
the same.
-/

namespace BreakpointProps.Yaml

/-- Why a document breaks off. -/
inductive Break where
  | flaw (flaw : Flaw)
  /-- An alias of nothing. -/
  | unknownAnchor (mark : Mark)
  deriving DecidableEq, Repr, Inhabited

def Break.message : Break → String
  | flaw reason => reason.message
  | unknownAnchor mark => "unknown anchor" ++ mark.suffix

inductive Part where
  /-- An alias with the number of its anchor. -/
  | aliasOf (anchor : Nat)
  | scalar (tag : Option String) (text : String) (style : ScalarStyle)
  | sequenceStart (tag : Option String)
  | sequenceEnd
  | mappingStart (tag : Option String)
  | mappingEnd
  /-- There is no document. -/
  | void
  deriving DecidableEq, Repr, Inhabited

/-- A part and where it stands. -/
structure Located where
  part : Part
  mark : Mark
  deriving DecidableEq, Repr, Inhabited

structure Document where
  parts : List Located := []
  /-- Why it breaks off behind its last part. -/
  broken : Option Break := none
  /-- The numbers of the anchors, the latest first. -/
  names : List (String × Nat) := []
  /-- Before how many parts an anchor with a number stands, the latest first. -/
  anchors : List (Nat × Nat) := []
  deriving Inhabited

namespace Document

/-- The number of different names of anchors, which numbers the next of them. -/
def anchorCount (document : Document) : Nat := (document.names.map Prod.fst).eraseDups.length

/-- Note an anchor before the next part. -/
def note (document : Document) : Option String → Document
  | none => document
  | some name =>
    let number := document.anchorCount
    { document with
      names := (name, number) :: document.names
      anchors := (number, document.parts.length) :: document.anchors }

def add (document : Document) (part : Part) (mark : Mark) : Document :=
  { document with parts := document.parts ++ [⟨part, mark⟩] }

/-- Add what an event tells. -/
def take (document : Document) (occurrence : Occurrence) : Document :=
  let noted := document.note occurrence.event.anchor?
  match occurrence.event with
  | .aliasOf name =>
    match document.names.lookup name with
    | some number => document.add (.aliasOf number) occurrence.mark
    | none => { document with broken := some (.unknownAnchor occurrence.mark) }
  | .scalar _ tag text style => noted.add (.scalar tag text style) occurrence.mark
  | .sequenceStart _ tag => noted.add (.sequenceStart tag) occurrence.mark
  | .sequenceEnd => noted.add .sequenceEnd occurrence.mark
  | .mappingStart _ tag => noted.add (.mappingStart tag) occurrence.mark
  | .mappingEnd => noted.add .mappingEnd occurrence.mark

/-- Take in events up to the end of the document. The reader comes along if the text goes on. -/
def readFrom : Nat → Document → EventReader → Document × Option EventReader
  | 0, document, _ => (document, none)
  | fuel + 1, document, reader =>
    match reader.next with
    | .error flaw => ({ document with broken := some (.flaw flaw) }, none)
    | .ok (.documentStart, reader) => readFrom fuel document reader
    | .ok (.documentEnd, reader) => (document, some reader)
    | .ok (.streamEnd, _) => (document.add .void {}, none)
    | .ok (.event occurrence, reader) =>
      let document := document.take occurrence
      if document.broken.isSome then (document, none) else readFrom fuel document reader

/-- The number of events that a text can have at most. -/
def eventBound (text : String) : Nat := 16 * (text.length + 4)

/-- Is there more behind a document than the end of the text? -/
def isFollowed (reader : EventReader) : Bool :=
  match reader.next with
  | .ok (.streamEnd, _) => false
  | _ => true

/-- The first document of a text, and whether another one follows. -/
def ofText (text : String) : Document × Bool :=
  match badOffset? 0 text.toList with
  | some offset => ({ broken := some (.flaw (.controlCharacter offset)) }, false)
  | none =>
    match readFrom (eventBound text) {} { tokens := .ofText text } with
    | (document, some reader) => (document, isFollowed reader)
    | (document, none) => (document, false)

end Document

end BreakpointProps.Yaml
