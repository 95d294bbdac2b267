import BreakpointProps.Config
import BreakpointProps.Detector
import BreakpointProps.Path
import BreakpointProps.Rewrite.Tree
import BreakpointProps.Script.Parser.Module
import BreakpointProps.Script.Printer.Script
import BreakpointProps.Script.SourceMap

/-!
How the source of a module is rewritten: it is read, its elements are rewritten, and it is written
again. The hook does so for the modules that may need it and never fails. A bundler names a module by a path,
perhaps with a query or a fragment behind it.
-/

namespace BreakpointProps

namespace ModuleId

def path (id : String) : Path :=
  ⟨String.ofList (id.toList.takeWhile fun c => c != '?' && c != '#')⟩

def extension? (id : String) : Option String := (path id).extension?

def isSupported (config : Config) (id : String) : Bool :=
  (extension? id).any config.acceptsExtension

def dialect (id : String) : Script.Dialect :=
  match extension? id with
  | some "tsx" => { jsx := true, typescript := true }
  | some "ts" | some "mts" | some "cts" => { jsx := false, typescript := true }
  | _ => { jsx := true, typescript := false }

end ModuleId

namespace Rewrite

/-- The source that takes the place of a module's. -/
structure Output where
  code : String
  /-- The source map, if one was wanted. -/
  map : Option String
  /-- The number of elements that were rewritten. -/
  elements : Nat
  deriving DecidableEq, Repr, Inhabited

/-- Why a module cannot be rewritten. -/
inductive Failure where
  /-- The source of the module is no script. -/
  | unreadable (id message : String)
  /-- Reading broke down. -/
  | breakdown
  deriving DecidableEq, Repr, Inhabited

def Failure.message : Failure → String
  | unreadable id message => s!"Failed to parse file {id}: {message}"
  | breakdown => ""

def Failure.ofRefusal (id : String) : Script.Refusal → Failure
  | .fatal fault => unreadable id ("Failed to parse JavaScript/TypeScript: " ++ fault.text)
  | .noted fault => unreadable id ("Recovered from syntax error: " ++ fault.text)
  | .breakdown => breakdown

/-- What became of a module, and what is reported about it. -/
structure Outcome (α : Type) where
  result : α
  entries : List LogEntry := []
  deriving Repr, Inhabited

/-- A source text without the mark that tells the order of its bytes. -/
def withoutMark (source : String) : String :=
  match source.toList with
  | '\ufeff' :: rest => String.ofList rest
  | _ => source

/-- A way to read the source of a script in a dialect. -/
abbrev Reader := Script.Dialect → String → Except Script.Refusal Script.Reading

/-- Rewrite the source of a module. There is no output if nothing was rewritten. -/
def rewriteSourceWith (read : Reader) (config : Config) (id source : String) :
    Outcome (Except Failure (Option Output)) :=
  let source := withoutMark source
  match read (ModuleId.dialect id) source with
  | .error refusal => { result := .error (.ofRefusal id refusal) }
  | .ok reading =>
    let (tree, tally) := rewriteNode id reading.tree
    if tally.elements == 0 then { result := .ok none, entries := tally.entries }
    else
      let written := tree.write reading.comments source
      let map :=
        if config.sourceMaps then
          some (Script.SourceMap.text (ModuleId.path id).text source.toList written.marks)
        else none
      { result := .ok (some ⟨written.text, map, tally.elements⟩), entries := tally.entries }

/-- Rewrite the source of a module that is read as a script. -/
def rewriteSource (config : Config) (id source : String) :
    Outcome (Except Failure (Option Output)) :=
  rewriteSourceWith Script.read config id source

/-- What the hook reports about a failure. -/
def Failure.entry (id : String) (failure : Failure) : LogEntry :=
  let message := match failure with
    | unreadable _ _ => "[breezy-css] Transform error: " ++ failure.message
    | breakdown => "[breezy-css] Transform panicked; file left unchanged"
  { level := .error, message, fields := [("file", id)] }

/-- The hook: what takes the place of a module's source, if anything does. -/
def hookWith (words : Text.WordClass) (read : Reader) (config : Config) (id source : String) :
    Outcome (Option Output) :=
  if !ModuleId.isSupported config id || !Detector.hasResponsivePropsBy words source then { result := none }
  else
    let outcome := rewriteSourceWith read config id source
    match outcome.result with
    | .error failure => { result := none, entries := outcome.entries ++ [failure.entry id] }
    | .ok none => { result := none, entries := outcome.entries }
    | .ok (some output) =>
      let entry : LogEntry :=
        { level := .debug, message := "rewrote responsive props"
          fields := [("file", id), ("elements", toString output.elements)] }
      { result := some output, entries := outcome.entries ++ [entry] }

/-- The hook for modules that are read as scripts. -/
def hook (config : Config) (id source : String) : Outcome (Option Output) :=
  hookWith Text.words Script.read config id source

end Rewrite

end BreakpointProps
