import BreakpointProps.Yaml.Source
import BreakpointProps.Yaml.Token

/-!
Anchors, aliases and tags.
-/

namespace BreakpointProps.Yaml.Source

/-- Can the character after a name end it? -/
def endsName (source : Source) : Bool :=
  source.isGapAt 0 || source.nextIs fun c => "?:,]\x7d%@\x60".toList.contains c

/-- The name of an anchor or an alias behind its mark. -/
def name (source : Source) (activity : Activity) : Except Flaw (String × Source) :=
  let (found, after) := (source.skip 1).span isNameChar
  if found.isEmpty || !after.endsName then after.fail .noName activity source.mark
  else .ok (String.ofList found, after)

/-- Where the parts of a tag are read, in a directive or at a node. -/
def tagParts (inDirective : Bool) : Activity := if inDirective then .handleParts else .tagParts

/-- The byte that an escape stands for. -/
def octet (source : Source) (inDirective : Bool) (start : Mark) : Except Flaw (Nat × Source) :=
  match source.rest with
  | '%' :: high :: low :: _ =>
    match hexValue? high, hexValue? low with
    | some high, some low => .ok (16 * high + low, source.skip 3)
    | _, _ => source.fail .noOctet (tagParts inDirective) start
  | _ => source.fail .noOctet (tagParts inDirective) start

/-- The number of bytes of the character that a byte starts. -/
def octetCount (first : Nat) : Nat :=
  if first < 0x80 then 1
  else if first < 0xC0 then 0
  else if first < 0xE0 then 2
  else if first < 0xF0 then 3
  else if first < 0xF8 then 4
  else 0

/-- The bytes of a character after its first. -/
def nextOctets (inDirective : Bool) (start : Mark) : Nat → Source → Except Flaw (List Nat × Source)
  | 0, source => .ok ([], source)
  | count + 1, source => do
    let (byte, after) ← source.octet inDirective start
    if byte / 64 != 2 then source.fail .badNextOctet (tagParts inDirective) start
    else
      let (rest, after) ← nextOctets inDirective start count after
      return (byte :: rest, after)

def escapedOctets (source : Source) (inDirective : Bool) (start : Mark) :
    Except Flaw (List Nat × Source) := do
  let (first, after) ← source.octet inDirective start
  match octetCount first with
  | 0 => source.fail .badFirstOctet (tagParts inDirective) start
  | count + 1 =>
    let (rest, after) ← nextOctets inDirective start count after
    return (first :: rest, after)

/-- Can a character stand in the part of a tag that names it? -/
def isUriChar (isVerbatim : Bool) (c : Char) : Bool :=
  isNameChar c || ";/?:@&=+$.%!~*'()".toList.contains c || (isVerbatim && ",[]".toList.contains c)

/-- The bytes of a tag up to a character that cannot stand in it. -/
def uriOctets (isVerbatim inDirective : Bool) (start : Mark) :
    Nat → Source → Except Flaw (List Nat × Source)
  | 0, source => .ok ([], source)
  | fuel + 1, source => do
    match source.rest with
    | '%' :: _ =>
      let (bytes, after) ← source.escapedOctets inDirective start
      let (rest, after) ← uriOctets isVerbatim inDirective start fuel after
      return (bytes ++ rest, after)
    | c :: _ =>
      if isUriChar isVerbatim c then
        let (rest, after) ← uriOctets isVerbatim inDirective start fuel (source.skip 1)
        return (c.toNat :: rest, after)
      else return ([], source)
    | [] => return ([], source)

def textOfOctets (bytes : List Nat) : String :=
  (String.fromUTF8? ⟨(bytes.map Nat.toUInt8).toArray⟩).getD "\ufffd"

/-- What a tag is called. It may begin with what looked like a handle, whose first character does not
count. -/
def uri (source : Source) (isVerbatim inDirective : Bool) (head : String) (start : Mark) :
    Except Flaw (String × Source) := do
  let (bytes, after) ← uriOctets isVerbatim inDirective start source.rest.length source
  if head.isEmpty && bytes.isEmpty then after.fail .noUri (tagParts inDirective) start
  else return ((head.drop 1).copy ++ textOfOctets bytes, after)

/-- A handle, or what looks like the start of one. -/
def handle (source : Source) (inDirective : Bool) (start : Mark) : Except Flaw (String × Source) :=
  if !source.startsWith '!' then source.fail .noHandle (if inDirective then .handle else .tag) start
  else
    let (name, after) := (source.skip 1).span isNameChar
    if after.startsWith '!' then .ok (String.ofList ('!' :: name ++ ['!']), after.skip 1)
    else if inDirective && !name.isEmpty then after.fail .noHandle .handleParts start
    else .ok (String.ofList ('!' :: name), after)

def tagText (source : Source) : Except Flaw ((String × String) × Source) := do
  let start := source.mark
  if source.peek? 1 == some '<' then
    let (suffix, after) ← (source.skip 2).uri true false "" start
    if after.startsWith '>' then return (("", suffix), after.skip 1)
    else after.fail .noAngle .tag start
  else
    let (handle, after) ← source.handle false start
    if handle.length > 1 && handle.endsWith "!" then
      let (suffix, after) ← after.uri false false "" start
      return ((handle, suffix), after)
    else
      let (suffix, after) ← after.uri false false handle start
      return (if suffix.isEmpty then ("", "!") else ("!", suffix), after)

def tag (source : Source) (inFlow : Bool) : Except Flaw (Token × Source) := do
  let ((handle, suffix), after) ← source.tagText
  if after.isGapAt 0 || (inFlow && after.startsWith ',') then return (.tag handle suffix, after)
  else after.fail .noBlankOrBreak .tag source.mark

end BreakpointProps.Yaml.Source
