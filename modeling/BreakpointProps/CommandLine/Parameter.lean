/-!
The parameters that commands have, and how each is given.
-/

namespace BreakpointProps.CommandLine

/-- How many values a parameter takes. -/
inductive Arity where
  /-- None: that the parameter is given says it all. -/
  | flag
  | one
  | oneOrMore
  | anyNumber
  deriving DecidableEq, Repr, Inhabited

inductive ValueKind where
  | text
  /-- A path, which must not be empty. -/
  | path
  | count
  deriving DecidableEq, Repr, Inhabited

/-- How a parameter is given. -/
structure Form where
  /-- The name behind two hyphens. What has none is given by its position. -/
  long : Option String
  /-- The letter behind one hyphen. -/
  short : Option Char := none
  arity : Arity := .one
  kind : ValueKind := .text
  /-- What a value is called. -/
  valueName : String := ""
  isRequired : Bool := false
  /-- The value if none is given. -/
  standard : Option String := none
  /-- What the parameter is for. -/
  purpose : String
  deriving DecidableEq, Repr, Inhabited

inductive Parameter where
  | moduleId
  | sourceMap
  | json
  | config
  | input
  | exclude
  | outDirectory
  | report
  | verbose
  | jobs
  | dryRun
  | target
  | help
  | version
  deriving DecidableEq, Repr, Inhabited

namespace Parameter

def form : Parameter → Form
  | moduleId => {
      long := some "id", valueName := "ID", standard := some "stdin.tsx"
      purpose := "Module id used for the extension check and the source map" }
  | sourceMap => {
      long := some "map", kind := .path, valueName := "PATH"
      purpose := "Write the source map to this file" }
  | json => {
      long := some "json", arity := .flag
      purpose := "Print \x60null\x60 or \x7b\"code\", \"map\"\x7d instead of plain code" }
  | config => {
      long := some "config", short := some 'c', kind := .path, valueName := "PATH"
      purpose := "Path to configuration file (YAML or JSON)" }
  | input => {
      long := some "input", short := some 'i', arity := .oneOrMore, valueName := "PATTERN"
      isRequired := true, purpose := "Input file patterns to rewrite" }
  | exclude => {
      long := some "exclude", short := some 'e', arity := .anyNumber, valueName := "PATTERN"
      purpose := "Patterns to exclude from rewriting" }
  | outDirectory => {
      long := some "out-dir", short := some 'o', kind := .path, valueName := "DIR"
      isRequired := true, purpose := "Directory the rewritten files are written to" }
  | report => {
      long := some "report", kind := .path, valueName := "PATH"
      purpose := "Write a JSON build report to this path" }
  | verbose => {
      long := some "verbose", short := some 'v', arity := .flag
      purpose := "Enable verbose output" }
  | jobs => {
      long := some "jobs", short := some 'j', kind := .count, valueName := "NUM"
      purpose := "Number of parallel threads to use (defaults to number of CPU cores)" }
  | dryRun => {
      long := some "dry-run", arity := .flag
      purpose := "Rewrite files but don't write any output" }
  | target => {
      long := none, valueName := "TARGET", isRequired := true
      purpose := "vite, rollup, webpack, esbuild or rspack" }
  | help => { long := some "help", short := some 'h', arity := .flag, purpose := "Print help" }
  | version => { long := some "version", short := some 'V', arity := .flag, purpose := "Print version" }

def takesValues (parameter : Parameter) : Bool := parameter.form.arity != .flag

def needsValue (parameter : Parameter) : Bool :=
  parameter.form.arity == .one || parameter.form.arity == .oneOrMore

/-- Can a parameter be given more than once? Those can that take more than one value. -/
def isRepeatable (parameter : Parameter) : Bool :=
  parameter.form.arity == .oneOrMore || parameter.form.arity == .anyNumber

/-- How the values of a parameter are written in messages. -/
def shownValues (parameter : Parameter) : String :=
  let value := "<" ++ parameter.form.valueName ++ ">"
  match parameter.form.arity with
  | .flag => ""
  | .one => value
  | .oneOrMore => value ++ "..."
  | .anyNumber => "[" ++ value ++ "...]"

def shown (parameter : Parameter) : String :=
  match parameter.form.long with
  | none => parameter.shownValues
  | some long =>
    if parameter.takesValues then "--" ++ long ++ " " ++ parameter.shownValues else "--" ++ long

end Parameter

end BreakpointProps.CommandLine
