import BreakpointProps.Yaml.Tokens

/-!
From tokens to events: the scalars of a YAML text, and where its sequences and mappings start and end. The
reader knows what may come next and what comes after that.
-/

namespace BreakpointProps.Yaml

inductive Event where
  | aliasOf (name : String)
  | scalar (anchor tag : Option String) (text : String) (style : ScalarStyle)
  | sequenceStart (anchor tag : Option String)
  | sequenceEnd
  | mappingStart (anchor tag : Option String)
  | mappingEnd
  deriving DecidableEq, Repr, Inhabited

def Event.anchor? : Event → Option String
  | scalar anchor _ _ _ => anchor
  | sequenceStart anchor _ => anchor
  | mappingStart anchor _ => anchor
  | _ => none

/-- An event and where it starts. -/
structure Occurrence where
  event : Event
  mark : Mark
  deriving DecidableEq, Repr, Inhabited

/-- What is expected next. -/
inductive Expectation where
  /-- A document, perhaps without a mark at its start. -/
  | firstDocument
  | nextDocument
  | content
  | documentEnd
  | blockNode
  | firstBlockEntry
  | blockEntry
  | plainBlockEntry
  | firstBlockKey
  | blockKey
  | blockValue
  | firstFlowEntry
  | flowEntry
  | pairKey
  | pairValue
  | pairEnd
  | firstFlowKey
  | flowKey
  | flowValue
  | noFlowValue
  | nothing
  deriving DecidableEq, Repr, Inhabited

/-- What a step of the reader yields. -/
inductive Reading where
  | documentStart
  | documentEnd
  | streamEnd
  | event (occurrence : Occurrence)
  deriving Inhabited

/-- The state between two events. -/
structure EventReader where
  tokens : Tokens
  expected : Expectation := .firstDocument
  /-- What is expected after that, the nearest first. -/
  later : List Expectation := []
  /-- Where the open collections start, the innermost first. -/
  starts : List Mark := []
  /-- The short forms of tags. -/
  handles : List (String × String) := []
  deriving Inhabited

namespace EventReader

/-- A step: what it yields and the state after it. -/
abbrev Step := Except Flaw (Reading × EventReader)

def peek (reader : EventReader) : Except Flaw (Lexeme × EventReader) := do
  let (lexeme, tokens) ← reader.tokens.peek
  return (lexeme, { reader with tokens })

/-- Pass over the next token. -/
def drop (reader : EventReader) : EventReader := { reader with tokens := reader.tokens.drop }

/-- Go on with what was put off. -/
def resume (reader : EventReader) : EventReader :=
  { reader with expected := reader.later.headD .nothing, later := reader.later.drop 1 }

def putOff (reader : EventReader) (expectation : Expectation) : EventReader :=
  { reader with later := expectation :: reader.later }

def expecting (reader : EventReader) (expectation : Expectation) : EventReader :=
  { reader with expected := expectation }

def yielding (reader : EventReader) (event : Event) (mark : Mark) : Step :=
  .ok (.event ⟨event, mark⟩, reader)

/-- Yield a scalar that is not written. -/
def yieldingEmpty (reader : EventReader) (mark : Mark) : Step :=
  reader.yielding (.scalar none none "" .plain) mark

/-- Note where a collection starts. -/
def opened (reader : EventReader) (mark : Mark) : EventReader :=
  { reader with starts := mark :: reader.starts }

/-- End a collection with its closing token. -/
def closing (reader : EventReader) (event : Event) (mark : Mark) : Step :=
  ({ reader with starts := reader.starts.drop 1 }.resume.drop).yielding event mark

/-- Fail at a token inside the innermost collection. -/
def failInside (reader : EventReader) (problem : Problem) (activity : Activity) (mark : Mark) : Step :=
  .error (.problem problem mark (some (activity, reader.starts.headD {})))

/-- The anchor and the tag of a node. -/
structure Properties where
  anchor : Option String := none
  /-- The parts of the tag and where they stand. -/
  tag : Option (String × String × Mark) := none
  deriving Inhabited

/-- Take in one property, if the next token is one that is still missing. -/
def property? (found : Properties) (token : Token) (mark : Mark) : Option Properties :=
  match token, found with
  | .anchor name, { anchor := none, .. } => some { found with anchor := some name }
  | .tag handle suffix, { tag := none, .. } => some { found with tag := some (handle, suffix, mark) }
  | _, _ => none

/-- The properties before a node, in either order. -/
def properties (reader : EventReader) : Except Flaw (Properties × EventReader) := do
  let (first, reader) ← reader.peek
  match property? {} first.token first.start with
  | none => return ({}, reader)
  | some found =>
    let (second, reader) ← reader.drop.peek
    match property? found second.token second.start with
    | none => return (found, reader)
    | some found => return (found, reader.drop)

/-- The name of a tag with its handle replaced by what it stands for. -/
def tagName (reader : EventReader) (start : Mark) :
    Option (String × String × Mark) → Except Flaw (Option String)
  | none => .ok none
  | some (handle, suffix, mark) =>
    if handle.isEmpty then .ok (some suffix)
    else
      match reader.handles.lookup handle with
      | some start => .ok (some (start ++ suffix))
      | none => .error (.problem .unknownHandle mark (some (.node, start)))

/-- A node that consists of its properties. -/
def emptyNode (reader : EventReader) (anchor tag : Option String) (start : Mark) (inBlock : Bool)
    (lexeme : Lexeme) : Step :=
  if anchor.isSome || tag.isSome then reader.resume.yielding (.scalar anchor tag "" .plain) start
  else .error (.problem .noContent lexeme.start (some (if inBlock then .blockNode else .flowNode, start)))

/-- Read a node. Blocks can start only where they are allowed, and a sequence without indentation only
as the value of a mapping. -/
def node (reader : EventReader) (inBlock allowsPlainEntries : Bool) : Step := do
  let (first, reader) ← reader.peek
  match first.token with
  | .aliasName name => reader.resume.drop.yielding (.aliasOf name) first.start
  | _ =>
    let start := first.start
    let (found, reader) ← reader.properties
    let (lexeme, reader) ← reader.peek
    let tag ← reader.tagName start found.tag
    match lexeme.token, inBlock with
    | .blockEntry, _ =>
      if allowsPlainEntries then
        (reader.expecting .plainBlockEntry).yielding (.sequenceStart found.anchor tag) start
      else reader.emptyNode found.anchor tag start inBlock lexeme
    | .scalar text style, _ =>
      let tag := if tag == some "!" then none else tag
      reader.resume.drop.yielding (.scalar found.anchor tag text style) start
    | .flowSequenceStart, _ =>
      (reader.expecting .firstFlowEntry).yielding (.sequenceStart found.anchor tag) start
    | .flowMappingStart, _ =>
      (reader.expecting .firstFlowKey).yielding (.mappingStart found.anchor tag) start
    | .blockSequenceStart, true =>
      (reader.expecting .firstBlockEntry).yielding (.sequenceStart found.anchor tag) start
    | .blockMappingStart, true =>
      (reader.expecting .firstBlockKey).yielding (.mappingStart found.anchor tag) start
    | _, _ => reader.emptyNode found.anchor tag start inBlock lexeme

/-- Read a node unless one of these tokens comes, which leave it empty. -/
def nodeUnless (reader : EventReader) (isEnd : Token → Bool) (next : Expectation) (mark : Mark)
    (inBlock allowsPlainEntries : Bool) : Step := do
  let (lexeme, reader) ← reader.peek
  if isEnd lexeme.token then (reader.expecting next).yieldingEmpty mark
  else (reader.putOff next).node inBlock allowsPlainEntries

/-- What is in force about tags from the start. -/
def standardHandles : List (String × String) := [("!", "!"), ("!!", "tag:yaml.org,2002:")]

/-- Take in the directives before a document. -/
def directives (reader : EventReader) : Nat → Bool → Except Flaw EventReader
  | 0, _ => .ok reader
  | fuel + 1, hasVersion => do
    let (lexeme, reader) ← reader.peek
    let fail (problem : Problem) : Except Flaw EventReader := .error (.problem problem lexeme.start none)
    match lexeme.token with
    | .version major minor =>
      if hasVersion then fail .secondVersion
      else if major != 1 || (minor != 1 && minor != 2) then fail .otherVersion
      else directives reader.drop fuel true
    | .handle name start =>
      if (reader.handles.lookup name).isSome then fail .secondHandle
      else directives { reader with handles := reader.handles ++ [(name, start)] }.drop fuel hasVersion
    | _ => return { reader with handles := reader.handles ++ standardHandles }

/-- Does a token stand before a document or end it? -/
def isDocumentToken : Token → Bool
  | .version _ _ | .handle _ _ | .documentStart | .documentEnd | .streamEnd => true
  | _ => false

/-- Pass over the marks at the ends of documents. -/
def skipDocumentEnds (reader : EventReader) : Nat → Except Flaw EventReader
  | 0 => .ok reader
  | fuel + 1 => do
    let (lexeme, reader) ← reader.peek
    if lexeme.token == .documentEnd then skipDocumentEnds reader.drop fuel else return reader

/-- The number of steps that are enough for any loop over tokens. -/
def fuel (reader : EventReader) : Nat :=
  3 * (reader.tokens.source.rest.length + reader.tokens.waiting.length) + 8

/-- Start a document, or find the end of the text. -/
def document (reader : EventReader) (isFirst : Bool) : Step := do
  let reader ← if isFirst then pure reader else reader.skipDocumentEnds reader.fuel
  let (lexeme, reader) ← reader.peek
  if lexeme.token == .streamEnd then return (.streamEnd, (reader.expecting .nothing).drop)
  else if isFirst && (lexeme.token == .documentEnd || !isDocumentToken lexeme.token) then
    let reader ← reader.directives 1 false
    return (.documentStart, (reader.putOff .documentEnd).expecting .blockNode)
  else
    let reader ← reader.directives reader.fuel false
    let (lexeme, reader) ← reader.peek
    if lexeme.token == .documentStart then
      return (.documentStart, ((reader.putOff .documentEnd).expecting .content).drop)
    else .error (.problem .noDocumentStart lexeme.start none)

def endsBlockEntry : Token → Bool
  | .blockEntry | .blockEnd => true
  | _ => false

def endsBlockPart : Token → Bool
  | .key | .value | .blockEnd => true
  | _ => false

def nextBlockEntry (reader : EventReader) : Step := do
  let (lexeme, reader) ← reader.peek
  match lexeme.token with
  | .blockEntry => reader.drop.nodeUnless endsBlockEntry .blockEntry lexeme.stop true false
  | .blockEnd => reader.closing .sequenceEnd lexeme.start
  | _ => reader.failInside .noDash .blockCollection lexeme.start

/-- The next entry of a sequence without indentation, which ends with the last of them. -/
def nextPlainBlockEntry (reader : EventReader) : Step := do
  let (lexeme, reader) ← reader.peek
  match lexeme.token with
  | .blockEntry =>
    reader.drop.nodeUnless (fun token => token == .blockEntry || endsBlockPart token) .plainBlockEntry
      lexeme.stop true false
  | _ => reader.resume.yielding .sequenceEnd lexeme.start

def nextBlockKey (reader : EventReader) : Step := do
  let (lexeme, reader) ← reader.peek
  match lexeme.token with
  | .key => reader.drop.nodeUnless endsBlockPart .blockValue lexeme.stop true true
  | .blockEnd => reader.closing .mappingEnd lexeme.start
  | _ => reader.failInside .noKey .blockMapping lexeme.start

def nextBlockValue (reader : EventReader) : Step := do
  let (lexeme, reader) ← reader.peek
  match lexeme.token with
  | .value => reader.drop.nodeUnless endsBlockPart .blockKey lexeme.stop true true
  | _ => (reader.expecting .blockKey).yieldingEmpty lexeme.start

/-- Pass over the comma before an entry that is not the first. -/
def comma (reader : EventReader) (isFirst : Bool) (problem : Problem) (activity : Activity) :
    Except Flaw EventReader := do
  let (lexeme, reader) ← reader.peek
  if isFirst then return reader
  else if lexeme.token == .flowEntry then return reader.drop
  else
    .error (.problem problem lexeme.start (some (activity, reader.starts.headD {})))

/-- The next entry between brackets. A pair stands for a mapping of its own. -/
def nextFlowEntry (reader : EventReader) (isFirst : Bool) : Step := do
  let (lexeme, reader) ← reader.peek
  if lexeme.token == .flowSequenceEnd then reader.closing .sequenceEnd lexeme.start
  else
    let reader ← reader.comma isFirst .noCommaOrBracket .flowSequence
    let (lexeme, reader) ← reader.peek
    match lexeme.token with
    | .key => (reader.expecting .pairKey).drop.yielding (.mappingStart none none) lexeme.start
    | .flowSequenceEnd => reader.closing .sequenceEnd lexeme.start
    | _ => (reader.putOff .flowEntry).node false false

def endsFlowEntry : Token → Bool
  | .flowEntry | .flowSequenceEnd => true
  | _ => false

/-- The key of a pair between brackets. A token that leaves it empty is passed over. -/
def nextPairKey (reader : EventReader) : Step := do
  let (lexeme, reader) ← reader.peek
  if lexeme.token == .value || endsFlowEntry lexeme.token then
    (reader.drop.expecting .pairValue).yieldingEmpty lexeme.stop
  else (reader.putOff .pairValue).node false false

def nextPairValue (reader : EventReader) : Step := do
  let (lexeme, reader) ← reader.peek
  if lexeme.token == .value then
    let (next, reader) ← reader.drop.peek
    reader.nodeUnless endsFlowEntry .pairEnd next.start false false
  else (reader.expecting .pairEnd).yieldingEmpty lexeme.start

def nextPairEnd (reader : EventReader) : Step := do
  let (lexeme, reader) ← reader.peek
  (reader.expecting .flowEntry).yielding .mappingEnd lexeme.start

def endsFlowValue : Token → Bool
  | .flowEntry | .flowMappingEnd => true
  | _ => false

def nextFlowKey (reader : EventReader) (isFirst : Bool) : Step := do
  let (lexeme, reader) ← reader.peek
  if lexeme.token == .flowMappingEnd then reader.closing .mappingEnd lexeme.start
  else
    let reader ← reader.comma isFirst .noCommaOrBrace .flowMapping
    let (lexeme, reader) ← reader.peek
    match lexeme.token with
    | .key =>
      let (next, reader) ← reader.drop.peek
      reader.nodeUnless (fun token => token == .value || endsFlowValue token) .flowValue next.start
        false false
    | .flowMappingEnd => reader.closing .mappingEnd lexeme.start
    | _ => (reader.putOff .noFlowValue).node false false

/-- The value for a key between braces. -/
def nextFlowValue (reader : EventReader) : Step := do
  let (lexeme, reader) ← reader.peek
  if lexeme.token == .value then
    let (next, reader) ← reader.drop.peek
    reader.nodeUnless endsFlowValue .flowKey next.start false false
  else (reader.expecting .flowKey).yieldingEmpty lexeme.start

/-- A value that cannot be there, since what came before it was no key. -/
def emptyFlowValue (reader : EventReader) : Step := do
  let (lexeme, reader) ← reader.peek
  (reader.expecting .flowKey).yieldingEmpty lexeme.start

/-- The content of a document behind its mark. -/
def content (reader : EventReader) : Step := do
  let (lexeme, reader) ← reader.peek
  if isDocumentToken lexeme.token then reader.resume.yieldingEmpty lexeme.start
  else reader.node true false

/-- The end of a document. Its handles are forgotten. -/
def endOfDocument (reader : EventReader) : Step := do
  let (lexeme, reader) ← reader.peek
  let reader := if lexeme.token == .documentEnd then reader.drop else reader
  return (.documentEnd, { reader with handles := [] }.expecting .nextDocument)

/-- Pass over the token that starts a collection. -/
def entered (reader : EventReader) : Except Flaw EventReader := do
  let (lexeme, reader) ← reader.peek
  return (reader.opened lexeme.start).drop

def next (reader : EventReader) : Step := do
  match reader.expected with
  | .firstDocument => reader.document true
  | .nextDocument => reader.document false
  | .content => reader.content
  | .documentEnd => reader.endOfDocument
  | .blockNode => reader.node true false
  | .firstBlockEntry => (← reader.entered).nextBlockEntry
  | .blockEntry => reader.nextBlockEntry
  | .plainBlockEntry => reader.nextPlainBlockEntry
  | .firstBlockKey => (← reader.entered).nextBlockKey
  | .blockKey => reader.nextBlockKey
  | .blockValue => reader.nextBlockValue
  | .firstFlowEntry => (← reader.entered).nextFlowEntry true
  | .flowEntry => reader.nextFlowEntry false
  | .pairKey => reader.nextPairKey
  | .pairValue => reader.nextPairValue
  | .pairEnd => reader.nextPairEnd
  | .firstFlowKey => (← reader.entered).nextFlowKey true
  | .flowKey => reader.nextFlowKey false
  | .flowValue => reader.nextFlowValue
  | .noFlowValue => reader.emptyFlowValue
  | .nothing => .ok (.streamEnd, reader)

end EventReader

end BreakpointProps.Yaml
