import BreakpointProps.Json.Basic
import BreakpointProps.Json.Literal

/-!
JSON texts read as far as they go. A tree keeps where its parts stand and where the text stops being
JSON, so that whoever takes it apart can tell the first thing that is wrong, be it a flaw of the text
or a value that was not expected there.
-/

namespace BreakpointProps.Json

/-- How an array or an object ends. -/
inductive Ending where
  /-- With its bracket, the end of which is given. -/
  | closed (stop : Nat)
  /-- The text goes wrong between two parts: the fault for a reader, and for one who passes over. -/
  | cut (fault passed : Fault)
  /-- Something other than a string stands where the name of a member should stand. -/
  | badName (ahead : Cursor)
  /-- The text went wrong within the last part. -/
  | lost
  deriving Inhabited

/-- Where an item of an array stands. -/
structure Slot where
  /-- The start of the item. -/
  start : Nat
  /-- Behind the item and the blanks after it, and behind the bracket or the comma and its blanks. -/
  settled : Nat
  deriving Inhabited

/-- The name of a member, and where the member stands. -/
structure Key where
  name : Except Fault String
  /-- The end of the name. -/
  stop : Nat
  /-- Behind the name and the blanks after it, and behind a bracket that closes the object there. -/
  settled : Nat
  /-- Behind the value and the blanks after it. -/
  next : Nat
  deriving Inhabited

/-- What a value looks like from its first character. -/
inductive Opening where
  | word
  | number
  | string
  | array
  | object
  | unknown
  deriving DecidableEq, Repr, Inhabited

/-- A value as it stands in a text. -/
inductive Tree where
  | null (stop : Nat)
  | bool (b : Bool) (stop : Nat)
  | number (n : Number) (start stop : Nat)
  | string (s : String) (stop : Nat)
  | array (start : Nat) (items : List (Slot × Tree)) (ending : Ending)
  | object (start : Nat) (members : List (Key × Tree)) (ending : Ending)
  /-- A value that cannot be read, and what is wrong for one who passes over it, if anything is. -/
  | refused (opening : Opening) (start : Nat) (fault : Fault) (passed : Option Fault)
  deriving Inhabited

namespace Tree

/-- A place where the text stops being JSON, for all readers alike. -/
def broken (opening : Opening) (start : Cursor) (fault : Fault) : Tree :=
  refused opening start.offset fault (some fault)

/-- A refused or whole literal: what reading makes of it, and what passing over it makes of it. -/
def literal {α : Type} (opening : Opening) (start : Cursor) (read : Except Fault (α × Cursor))
    (pass : Except Fault Cursor) (whole : α → Nat → Tree) : Tree × Option Cursor :=
  match read, pass with
  | .ok (value, next), _ => (whole value next.offset, some next)
  | .error fault, .ok next => (refused opening start.offset fault none, some next)
  | .error fault, .error passed => (refused opening start.offset fault (some passed), none)

/-- The rest of a word, from behind its first letter. -/
def word (letters : List Char) (cursor : Cursor) : Except Fault Cursor :=
  match letters with
  | [] => .ok cursor
  | c :: more =>
    match cursor.rest with
    | [] => .error (cursor.fault .endInValue)
    | d :: _ =>
      if c == d then word more (cursor.skip 1) else .error ((cursor.skip 1).fault .expectedIdent)

def ofWord (letters : List Char) (whole : Nat → Tree) (cursor : Cursor) : Tree × Option Cursor :=
  match word letters (cursor.skip 1) with
  | .ok next => (whole next.offset, some next)
  | .error fault => (broken .word cursor fault, none)

mutual

/-- The first fault for one who passes over the value. -/
def passFault? : Tree → Option Fault
  | array _ items ending => itemsPassFault? ending items
  | object _ members ending => membersPassFault? ending members
  | refused _ _ _ passed => passed
  | _ => none

/-- The first fault for one who passes over the items, and then over the ending. -/
def itemsPassFault? (ending : Ending) : List (Slot × Tree) → Option Fault
  | [] => match ending with
    | .cut _ passed => some passed
    | .badName ahead => some (ahead.faultAhead .keyNotString)
    | _ => none
  | (_, item) :: rest => match passFault? item with
    | some fault => some fault
    | none => itemsPassFault? ending rest

/-- The first fault for one who passes over the members, and then over the ending. -/
def membersPassFault? (ending : Ending) : List (Key × Tree) → Option Fault
  | [] => match ending with
    | .cut _ passed => some passed
    | .badName ahead => some (ahead.faultAhead .keyNotString)
    | _ => none
  | (_, value) :: rest => match passFault? value with
    | some fault => some fault
    | none => membersPassFault? ending rest

end

/-- The greatest number of arrays and objects within each other. -/
def greatestDepth : Nat := 127

/-- An array or an object at a depth. Below the greatest depth it can only be passed over. -/
def atDepth (depth : Nat) (opening : Opening) (start : Cursor) (tree : Tree) : Tree :=
  if depth < greatestDepth then tree
  else refused opening start.offset (start.faultAhead .tooDeep) tree.passFault?

mutual

/-- The value ahead, and what follows it unless the text goes wrong. -/
def value : Nat → Nat → Cursor → Tree × Option Cursor
  | 0, _, cursor => (broken .unknown cursor (cursor.faultAhead .expectedValue), none)
  | fuel + 1, depth, before =>
    let cursor := before.skipBlanks
    match cursor.peek? with
    | none => (broken .unknown cursor (cursor.faultAhead .endInValue), none)
    | some 'n' => ofWord ['u', 'l', 'l'] null cursor
    | some 't' => ofWord ['r', 'u', 'e'] (bool true) cursor
    | some 'f' => ofWord ['a', 'l', 's', 'e'] (bool false) cursor
    | some '"' =>
      let inside := cursor.skip 1
      literal .string cursor (readString inside) (passString inside) string
    | some '-' =>
      let unsigned := cursor.skip 1
      literal .number cursor (readNumber true unsigned) (passNumber unsigned) (number · cursor.offset)
    | some '[' =>
      let (items, ending, next) := items fuel (depth + 1) true (cursor.skip 1)
      (atDepth depth .array cursor (array cursor.offset items ending), next)
    | some '{' =>
      let (members, ending, next) := members fuel (depth + 1) true (cursor.skip 1)
      (atDepth depth .object cursor (object cursor.offset members ending), next)
    | some c =>
      if c.isDigit then
        literal .number cursor (readNumber false cursor) (passNumber cursor) (number · cursor.offset)
      else (broken .unknown cursor (cursor.faultAhead .expectedValue), none)

/-- The items ahead, the ending of the array, and what follows it. -/
def items : Nat → Nat → Bool → Cursor → List (Slot × Tree) × Ending × Option Cursor
  | 0, _, _, cursor => ([], .cut (cursor.fault .endInList) (cursor.fault .endInList), none)
  | fuel + 1, depth, first, before =>
    let cursor := before.skipBlanks
    match cursor.peek?, first with
    | none, _ => ([], .cut (cursor.faultAhead .endInList) (cursor.faultAhead .endInList), none)
    | some ']', _ => ([], .closed (cursor.offset + 1), some (cursor.skip 1))
    | some ',', false =>
      let afterComma := (cursor.skip 1).skipBlanks
      match afterComma.peek? with
      | none =>
        ([], .cut (afterComma.faultAhead .endInValue) (afterComma.faultAhead .endInValue), none)
      | some ']' =>
        ([], .cut (afterComma.faultAhead .trailingComma) (afterComma.faultAhead .expectedValue), none)
      | some _ => item fuel depth afterComma
    | some _, true => item fuel depth cursor
    | some _, false =>
      ([], .cut (cursor.faultAhead .expectedCommaOrBracket) (cursor.faultAhead .expectedCommaOrBracket),
        none)

/-- The item ahead and those after it. -/
def item : Nat → Nat → Cursor → List (Slot × Tree) × Ending × Option Cursor
  | 0, _, cursor => ([], .cut (cursor.fault .endInList) (cursor.fault .endInList), none)
  | fuel + 1, depth, cursor =>
    match value fuel depth cursor with
    | (tree, none) => ([(⟨cursor.offset, 0⟩, tree)], .lost, none)
    | (tree, some next) =>
      let next := next.skipBlanks
      let settled := match next.peek? with
        | some ']' => next.offset + 1
        | some ',' => (next.skip 1).skipBlanks.offset
        | _ => next.offset
      let (rest, ending, last) := items fuel depth false next
      ((⟨cursor.offset, settled⟩, tree) :: rest, ending, last)

/-- The members ahead, the ending of the object, and what follows it. -/
def members : Nat → Nat → Bool → Cursor → List (Key × Tree) × Ending × Option Cursor
  | 0, _, _, cursor => ([], .cut (cursor.fault .endInObject) (cursor.fault .endInObject), none)
  | fuel + 1, depth, first, before =>
    let cursor := before.skipBlanks
    match cursor.peek?, first with
    | none, _ => ([], .cut (cursor.faultAhead .endInObject) (cursor.faultAhead .endInObject), none)
    | some '}', _ => ([], .closed (cursor.offset + 1), some (cursor.skip 1))
    | some ',', false =>
      let afterComma := (cursor.skip 1).skipBlanks
      match afterComma.peek? with
      | none =>
        ([], .cut (afterComma.faultAhead .endInValue) (afterComma.faultAhead .endInObject), none)
      | some '"' => member fuel depth (afterComma.skip 1)
      | some '}' =>
        ([], .cut (afterComma.faultAhead .trailingComma) (afterComma.faultAhead .keyNotString), none)
      | some _ => ([], .badName afterComma, none)
    | some '"', true => member fuel depth (cursor.skip 1)
    | some _, true => ([], .badName cursor, none)
    | some _, false =>
      ([], .cut (cursor.faultAhead .expectedCommaOrBrace) (cursor.faultAhead .expectedCommaOrBrace),
        none)

/-- The member ahead, from behind the opening quote of its name, and those after it. -/
def member : Nat → Nat → Cursor → List (Key × Tree) × Ending × Option Cursor
  | 0, _, cursor => ([], .cut (cursor.fault .endInObject) (cursor.fault .endInObject), none)
  | fuel + 1, depth, cursor =>
    match passString cursor with
    | .error passed =>
      let name := (readString cursor).map (·.1)
      let fault := match name with
        | .error fault => fault
        | .ok _ => passed
      ([(⟨name, 0, 0, 0⟩, refused .unknown cursor.offset fault (some passed))], .lost, none)
    | .ok afterName =>
      let name := (readString cursor).map (·.1)
      let colon := afterName.skipBlanks
      let key : Key := { name, stop := afterName.offset, settled := colon.offset, next := 0 }
      match colon.peek? with
      | some ':' =>
        match value fuel depth (colon.skip 1) with
        | (tree, none) => ([(key, tree)], .lost, none)
        | (tree, some next) =>
          let next := next.skipBlanks
          let (rest, ending, last) := members fuel depth false next
          (({ key with next := next.offset }, tree) :: rest, ending, last)
      | some '}' =>
        ([({ key with settled := colon.offset + 1 }, broken .unknown colon (colon.faultAhead .expectedColon))],
          .lost, none)
      | some _ => ([(key, broken .unknown colon (colon.faultAhead .expectedColon))], .lost, none)
      | none => ([(key, broken .unknown colon (colon.faultAhead .endInObject))], .lost, none)

end

mutual

def json : Tree → Except Fault Json
  | null _ => .ok .null
  | bool b _ => .ok (.bool b)
  | number n _ _ => .ok (.number n)
  | string s _ => .ok (.string s)
  | array _ items ending => do return .array (← itemsJson ending items)
  | object _ members ending => do return .object (← membersJson ending members)
  | refused _ _ fault _ => .error fault

def itemsJson (ending : Ending) : List (Slot × Tree) → Except Fault (List Json)
  | [] => match ending with
    | .cut fault _ => .error fault
    | _ => .ok []
  | (_, item) :: rest => do return (← json item) :: (← itemsJson ending rest)

def membersJson (ending : Ending) : List (Key × Tree) → Except Fault (List (String × Json))
  | [] => match ending with
    | .cut fault _ => .error fault
    | .badName ahead => .error (ahead.faultAhead .keyNotString)
    | _ => .ok []
  | (key, value) :: rest => do
    return (← key.name, ← json value) :: (← membersJson ending rest)

end

mutual

/-- A value that stands in no text, as a tree. -/
def ofJson : Json → Tree
  | .null => null 0
  | .bool b => bool b 0
  | .number n => number n 0 0
  | .string s => string s 0
  | .array items => array 0 (ofItems items) (.closed 0)
  | .object members => object 0 (ofMembers members) (.closed 0)

/-- The items of a value that stands in no text. -/
def ofItems : List Json → List (Slot × Tree)
  | [] => []
  | item :: rest => (⟨0, 0⟩, ofJson item) :: ofItems rest

/-- The members of a value that stands in no text. -/
def ofMembers : List (String × Json) → List (Key × Tree)
  | [] => []
  | (name, value) :: rest => (⟨.ok name, 0, 0, 0⟩, ofJson value) :: ofMembers rest

end

end Tree

/-- A text as one value, with what stands behind it if anything does. -/
structure Reading where
  tree : Tree
  /-- The fault of a text that goes on behind its value. -/
  trailing : Option Fault

def read (text : String) : Reading :=
  let cursor := Cursor.ofText text
  match Tree.value (4 * cursor.rest.length + 8) 0 cursor with
  | (tree, none) => ⟨tree, none⟩
  | (tree, some next) =>
    let next := next.skipBlanks
    ⟨tree, if next.rest.isEmpty then none else some (next.faultAhead .trailingCharacters)⟩

/-- Take the value of a text apart. What stands behind the value is looked at last. -/
def decodeText {α : Type} (decode : Tree → Except Fault α) (text : String) : Except Fault α := do
  let reading := read text
  let decoded ← decode reading.tree
  match reading.trailing with
  | some fault => .error fault
  | none => return decoded

def ofText (text : String) : Except Fault Json := decodeText Tree.json text

end BreakpointProps.Json
