import BreakpointProps.Config.Json
import BreakpointProps.FileSystem.Access
import BreakpointProps.Yaml.Decode

/-!
Settings as YAML, and settings from a file. Its extension tells how they are written.
-/

namespace BreakpointProps.Config

section OfYaml

open Yaml (Document Fault Located Trail)

def storeYaml (document : Document) (config : Config) (name : String) (trail : Trail)
    (parts : List Located) : Except Fault (Config × List Located) :=
  match name with
  | "extensions" => do
    let (extensions, rest) ← document.asList (document.asString "a string") trail parts
    return ({ config with extensions }, rest)
  | "source_maps" => do
    let (sourceMaps, rest) ← document.asBool trail parts
    return ({ config with sourceMaps }, rest)
  | _ => do
    let (name, rest) ← document.asChoice Mode.names trail parts
    return ({ config with mode := (Mode.ofName? name).getD .production }, rest)

/-- The settings in a YAML text. What is left out is as in the standard settings. -/
def ofYaml (mode : Mode) (text : String) : Except Fault Config :=
  Yaml.decodeText
    (fun document => document.asRecord shape.name shape.fields (storeYaml document) (.standard mode)) text

end OfYaml

/-- Why settings cannot be loaded. -/
inductive LoadFault where
  | unsupported (path : Path)
  | unreadable (path : Path) (fault : FileSystem.Fault)
  /-- The text is not the JSON that is wanted. -/
  | badJson (text : String) (fault : Json.Fault)
  /-- The text is not the YAML that is wanted. -/
  | badYaml (fault : Yaml.Fault)
  | unusable (flaw : Flaw)
  deriving Inhabited

def LoadFault.message : LoadFault → String
  | unsupported path =>
    "Unsupported config file format: " ++ path.text ++ ". Use .yaml, .yml, or .json"
  | unreadable path fault => "Failed to read config file " ++ path.text ++ ": " ++ fault.message
  | badJson text fault => "Failed to parse JSON config: " ++ fault.messageIn text
  | badYaml fault => "Failed to parse YAML config: " ++ fault.message
  | unusable flaw => flaw.message

/-- How settings can be written. -/
inductive Format where
  | json
  | yaml
  deriving DecidableEq, Repr, Inhabited

/-- How a file with an extension is written. -/
def Format.ofExtension? : Option String → Option Format
  | some "json" => some .json
  | some "yaml" => some .yaml
  | some "yml" => some .yaml
  | _ => none

/-- The settings that a text stands for. -/
def Format.read (mode : Mode) (text : String) : Format → Except LoadFault Config
  | json => (Json.decodeText (Config.decode .text mode) text).mapError (.badJson text)
  | yaml => (Config.ofYaml mode text).mapError .badYaml

/-- The settings in a file. They have to be without flaw. -/
def ofFile (files : FileSystem) (mode : Mode) (path : Path) : Except LoadFault Config := do
  let some format := Format.ofExtension? path.extension? | .error (.unsupported path)
  let text ← (files.readText path).mapError (.unreadable path)
  let config ← format.read mode text
  match config.flaw? with
  | some flaw => .error (.unusable flaw)
  | none => .ok config

/-- The settings in a file, or the standard ones if there is none. -/
def load (files : FileSystem) (mode : Mode) : Option Path → Except LoadFault Config
  | some path => ofFile files mode path
  | none => .ok (.standard mode)

end BreakpointProps.Config
