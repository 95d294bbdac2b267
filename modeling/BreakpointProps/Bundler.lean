import BreakpointProps.Config
import BreakpointProps.Json.Basic
import BreakpointProps.Text.CharClass
import BreakpointProps.Text.Pattern

/-!
The bundlers that can run the rewriting as a plugin, and how the plugin registers with each.
-/

namespace BreakpointProps

inductive Bundler where
  | vite
  | rollup
  | webpack
  | esbuild
  | rspack
  deriving DecidableEq, Repr, Inhabited

namespace Bundler

def all : List Bundler := [vite, rollup, webpack, esbuild, rspack]

def name : Bundler → String
  | vite => "vite"
  | rollup => "rollup"
  | webpack => "webpack"
  | esbuild => "esbuild"
  | rspack => "rspack"

/-- A text without the white space at its ends. -/
def trimmed (text : List Char) : List Char :=
  ((text.dropWhile Text.isWhiteSpace).reverse.dropWhile Text.isWhiteSpace).reverse

/-- The bundler that a text names. The case of ASCII letters and white space around the name do not
matter. -/
def ofText? (text : String) : Option Bundler :=
  let wanted := String.ofList ((trimmed text.toList).map Char.toLower)
  all.find? fun bundler => bundler.name == wanted

/-- The name under which the plugin registers. -/
def pluginName : String := "breezy-css"

/-- When the plugin runs among the others: always before anything else reads the attributes. -/
def order : String := "pre"

/-- The names of the modules that are handed to the plugin: an accepted extension, and perhaps a query
or a fragment behind it. -/
def idPattern (config : Config) : Text.Pattern :=
  .append (.literal ['.'])
    (.append (.choice (config.extensions.map String.toList))
      (.optional (.append (.oneOf ['?', '#']) .withinLine)))

/-- The filter on the names of modules as a regular expression. -/
def idFilter (config : Config) : String := (idPattern config).sourceAtEnd

/-- The rule for a bundler that runs a loader: it starts a command for each module. -/
def loaderRule (config : Config) : Json :=
  .object
    [("enforce", .string order), ("loader", .string "breezy-css/loader"),
      ("options", .object
        [("command", .array [.string "breezy-css", .string "transform", .string "--json"]),
          ("idArg", .string "--id")]),
      ("test", .string (idFilter config))]

/-- What the plugin tells the bundler about itself. -/
def registration (config : Config) : Bundler → Json
  | vite =>
    .object [("enforce", .string order), ("hooks", .array [.string "transform"]), ("name", .string pluginName)]
  | rollup =>
    .object
      [("name", .string pluginName),
        ("transform", .object
          [("filter", .object [("id", .string (idFilter config))]), ("order", .string order)])]
  | webpack | rspack =>
    .object
      [("module", .object [("rules", .array [loaderRule config])]), ("name", .string pluginName)]
  | esbuild =>
    .object
      [("name", .string pluginName),
        ("setup", .object [("onLoad", .object [("filter", .string (idFilter config))])])]

end Bundler

end BreakpointProps
