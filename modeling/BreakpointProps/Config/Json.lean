import BreakpointProps.Config
import BreakpointProps.Json.Decode

/-!
Settings as JSON.
-/

namespace BreakpointProps

open Json (Tree Fault Origin)

def Mode.ofName? (name : String) : Option Mode :=
  [Mode.development, .production].find? fun mode => mode.name == name

def Mode.names : List String := ["development", "production"]

def Mode.decode (origin : Origin) (tree : Tree) : Except Fault Mode := do
  let name ← tree.asChoice origin Mode.names
  return (Mode.ofName? name).getD .production

namespace Config

/-- The settings as JSON. -/
def toJson (config : Config) : Json :=
  .object
    [("extensions", .array (config.extensions.map .string)), ("source_maps", .bool config.sourceMaps),
      ("mode", .string config.mode.name)]

/-- The fields, none of which has to be there. -/
def shape : Tree.Shape := ⟨"BreezyConfig", ["extensions", "source_maps", "mode"], true⟩

def store (origin : Origin) (config : Config) (name : String) (value : Tree) : Except Fault Config :=
  match name with
  | "extensions" => do return { config with extensions := ← value.asList fun _ => Tree.asString }
  | "source_maps" => do return { config with sourceMaps := ← value.asBool }
  | _ => do return { config with mode := ← Mode.decode origin value }

/-- The settings that a tree stands for. What is left out is as in the standard settings. -/
def decode (origin : Origin) (mode : Mode) (tree : Tree) : Except Fault Config := do
  let (config, _) ← tree.asRecord origin shape (store origin) (.standard mode)
  return config

end Config

end BreakpointProps
