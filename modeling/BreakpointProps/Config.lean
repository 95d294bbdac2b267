/-!
What the rewriting of a module depends on, and what is reported on the way: entries with a level, a message
and named values.
-/

namespace BreakpointProps

/-- For whom a program is built. It decides what is logged, and nothing else. -/
inductive Mode where
  | development
  | production
  deriving DecidableEq, Repr, Inhabited

namespace Mode

/-- The mode that a variable of the environment names: production unless it says otherwise. -/
def ofEnvironment (value : Option String) : Mode :=
  if value == some "development" then development else production

def name : Mode → String
  | development => "development"
  | production => "production"

/-- Is the program built for its developers? -/
def isDevelopment (mode : Mode) : Bool := mode == development

end Mode

/-- How grave an entry is. -/
inductive LogLevel where
  | debug | info | warn | error
  deriving DecidableEq, Repr, Inhabited

def LogLevel.name : LogLevel → String
  | debug => "DEBUG"
  | info => "INFO"
  | warn => "WARN"
  | error => "ERROR"

structure LogEntry where
  level : LogLevel
  message : String
  fields : List (String × String) := []
  deriving DecidableEq, Repr, Inhabited

/-- The settings. The names of the breakpoints are not among them. -/
structure Config where
  /-- The extensions of the files that are looked at, without the dot. -/
  extensions : List String
  /-- Is a source map made for what was rewritten? -/
  sourceMaps : Bool
  mode : Mode
  deriving DecidableEq, Repr, Inhabited

namespace Config

/-- The settings where none are given. -/
def standard (mode : Mode) : Config := ⟨["jsx", "tsx"], true, mode⟩

def acceptsExtension (config : Config) (extension : String) : Bool :=
  config.extensions.contains extension

/-- Why settings cannot be used. -/
inductive Flaw where
  | noExtension
  /-- An extension is empty or starts with a dot. -/
  | badExtension (extension : String)
  deriving DecidableEq, Repr, Inhabited

def Flaw.message : Flaw → String
  | noExtension => "At least one file extension must be configured"
  | badExtension extension =>
    "Invalid extension '" ++ extension ++ "': use bare names such as \"tsx\""

/-- Can no file have this extension? -/
def isBadExtension (extension : String) : Bool :=
  extension.isEmpty || extension.toList.head? == some '.'

def flaw? (config : Config) : Option Flaw :=
  if config.extensions.isEmpty then some .noExtension
  else (config.extensions.find? isBadExtension).map .badExtension

/-- Put the extensions at the end that are not there yet. -/
def addExtensions (known added : List String) : List String :=
  added.foldl (fun list extension => if list.contains extension then list else list ++ [extension]) known

/-- Join two settings: each accepts what either accepts, maps are made if both want them, and the
mode is development if either is. -/
def merge (config other : Config) : Config where
  extensions := addExtensions config.extensions other.extensions
  sourceMaps := config.sourceMaps && other.sourceMaps
  mode := if other.mode.isDevelopment then other.mode else config.mode

end Config

end BreakpointProps
