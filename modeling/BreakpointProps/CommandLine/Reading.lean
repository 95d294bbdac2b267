import BreakpointProps.CommandLine.Stop
import BreakpointProps.Path

/-!
How the words behind the name of a command are read: one after the other, each for what the words
before it leave open.
-/

namespace BreakpointProps.CommandLine

/-- What a word looks like. -/
inductive Word where
  /-- Two hyphens alone: all words behind them are given by position. -/
  | separator
  /-- Two hyphens and a name, maybe with a value behind an equals sign. -/
  | long (name : String) (value : Option String)
  /-- One hyphen and letters. -/
  | short (letters : List Char)
  | plain
  deriving DecidableEq, Repr, Inhabited

namespace Word

/-- The value behind the first equals sign, if there is one. -/
def valueOf? : List Char → Option String
  | [] => none
  | '=' :: value => some (String.ofList value)
  | _ :: cs => valueOf? cs

/-- What a text looks like. A hyphen alone is a plain word. -/
def ofText (text : String) : Word :=
  match text.toList with
  | ['-', '-'] => separator
  | '-' :: '-' :: name => long (String.ofList (name.takeWhile (· != '='))) (valueOf? name)
  | '-' :: c :: cs => short (c :: cs)
  | _ => plain

end Word

/-- The parameters that were given, each with its values, in order. -/
abbrev Given := List (Parameter × List String)

namespace Given

def has (given : Given) (parameter : Parameter) : Bool := given.any fun entry => entry.1 == parameter

def values (given : Given) (parameter : Parameter) : List String :=
  (given.filter fun entry => entry.1 == parameter).flatMap Prod.snd

def value? (given : Given) (parameter : Parameter) : Option String := (given.values parameter).head?

def path? (given : Given) (parameter : Parameter) : Option Path := (given.value? parameter).map Path.mk

def count? (given : Given) (parameter : Parameter) : Option Nat :=
  (given.value? parameter).bind fun value => (countOf value).toOption

end Given

/-- What was read so far. -/
structure Reading where
  command : Subcommand
  given : Given := []
  /-- The parameter that was given last, with its values so far. It is looked at when it is certain that
  all of them are there. -/
  pending : Option (Parameter × List String) := none
  /-- Does the pending parameter take the next plain word? -/
  isOpen : Bool := false
  /-- Are all further words given by position? -/
  isTrailing : Bool := false
  /-- The parameters by position that are still to come. -/
  positions : List Parameter
  deriving DecidableEq, Repr, Inhabited

namespace Reading

def start (command : Subcommand) : Reading := { command, positions := command.positional }

def fail (fault : UsageFault) : Except Stop Reading := .error (.fault fault)

def valueFault? (parameter : Parameter) (value : String) : Option UsageFault :=
  match parameter.form.kind with
  | .text => none
  | .path => if value.isEmpty then some (.missingValue parameter) else none
  | .count =>
    match countOf value with
    | .ok _ => none
    | .error flaw => some (.badCount parameter value flaw)

/-- What is wrong with a parameter that is given with all its values. -/
def fault? (reading : Reading) (parameter : Parameter) (values : List String) : Option UsageFault :=
  if values.isEmpty && parameter.needsValue then some (.missingValue parameter)
  else if !parameter.isRepeatable && reading.given.has parameter then some (.repeated parameter)
  else values.findSome? (valueFault? parameter)

/-- Note a parameter with all its values. The one that asks for the page of the command ends the
reading. -/
def note (reading : Reading) (parameter : Parameter) (values : List String) : Except Stop Reading :=
  if parameter == .help then .error (.page (.command reading.command))
  else
    match reading.fault? parameter values with
    | some fault => fail fault
    | none => .ok { reading with given := reading.given ++ [(parameter, values)] }

/-- Note the pending parameter. -/
def settle (reading : Reading) : Except Stop Reading :=
  match reading.pending with
  | none => .ok { reading with isOpen := false }
  | some (parameter, values) =>
    { reading with pending := none, isOpen := false }.note parameter values

def give (reading : Reading) (parameter : Parameter) (values : List String) : Except Stop Reading := do
  (← reading.settle).note parameter values

/-- A parameter is given, and its values are the words to come. -/
def await (reading : Reading) (parameter : Parameter) : Except Stop Reading := do
  return { ← reading.settle with pending := some (parameter, []), isOpen := true }

/-- A word is given by position. -/
def place (reading : Reading) (word : String) : Except Stop Reading :=
  match reading.positions with
  | [] => fail (.unexpected word)
  | parameter :: later => do
    return { ← reading.settle with pending := some (parameter, [word]), positions := later }

/-- A plain word: a value of the pending parameter if that takes one. -/
def plainWord (reading : Reading) (word : String) : Except Stop Reading :=
  match reading.isOpen, reading.pending with
  | true, some (parameter, values) =>
    .ok { reading with
      pending := some (parameter, values ++ [word])
      isOpen := parameter.form.arity != .one }
  | _, _ => reading.place word

def longWord (reading : Reading) (name : String) (value : Option String) : Except Stop Reading :=
  match reading.command.ofLong? name with
  | none => fail (.unexpected ("--" ++ name))
  | some parameter =>
    match parameter.takesValues, value with
    | true, none => reading.await parameter
    | true, some value => reading.give parameter [value]
    | false, none => reading.give parameter []
    | false, some value => fail (.unexpectedValue parameter value)

/-- Letters behind one hyphen. A letter that takes values has what is behind it for its value, with an
equals sign between them or not. -/
def shortWord (reading : Reading) : List Char → Except Stop Reading
  | [] => .ok reading
  | letter :: behind =>
    match reading.command.ofShort? letter with
    | none => fail (.unexpected ("-" ++ String.singleton letter))
    | some parameter =>
      if parameter.takesValues then
        match behind with
        | [] => reading.await parameter
        | '=' :: value => reading.give parameter [String.ofList value]
        | value => reading.give parameter [String.ofList value]
      else do shortWord (← reading.give parameter []) behind

def next (reading : Reading) (word : String) : Except Stop Reading :=
  if reading.isTrailing then reading.place word
  else
    match Word.ofText word with
    | .separator => .ok { reading with isTrailing := true }
    | .long name value => reading.longWord name value
    | .short letters => reading.shortWord letters
    | .plain => reading.plainWord word

def all (reading : Reading) : List String → Except Stop Reading
  | [] => .ok reading
  | word :: words => do all (← reading.next word) words

/-- What was given when there are no more words. -/
def finish (reading : Reading) : Except Stop Given := do
  let reading ← reading.settle
  match reading.command.required.filter fun parameter => !reading.given.has parameter with
  | [] => return reading.given
  | missing => .error (.fault (.missing missing))

end Reading

/-- What the words behind the name of a command give. -/
def Given.ofWords (command : Subcommand) (words : List String) : Except Stop Given := do
  ((← (Reading.start command).all words)).finish

end BreakpointProps.CommandLine
