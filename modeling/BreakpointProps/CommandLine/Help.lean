import BreakpointProps.CommandLine.Subcommand

/-!
The pages that explain the program and its commands.
-/

namespace BreakpointProps.CommandLine

/-- What a page explains. -/
inductive Topic where
  | program
  | command (subcommand : Subcommand)
  /-- The command that explains the others. -/
  | help
  deriving DecidableEq, Repr, Inhabited

/-- A table with a heading: what is explained stands before its explanation. -/
structure HelpTable where
  heading : String
  rows : List (String × String)
  deriving DecidableEq, Repr, Inhabited

namespace HelpTable

def width (table : HelpTable) : Nat :=
  (table.rows.map fun row => row.1.length).foldl max 0

/-- The blanks that fill a text up to a width. -/
def fill (width : Nat) (text : String) : String :=
  String.ofList (List.replicate (width - text.length) ' ')

/-- A table as text. The explanations start in one column. A table without rows is not shown. -/
def text (table : HelpTable) : String :=
  if table.rows.isEmpty then ""
  else
    "\n" ++ table.heading ++ ":\n"
      ++ String.join (table.rows.map fun (left, right) =>
        "  " ++ left ++ fill table.width left ++ "  " ++ right ++ "\n")

def namedRow (parameter : Parameter) : String × String :=
  let short := match parameter.form.short with
    | some short => "-" ++ String.singleton short ++ ", "
    | none => "    "
  let standard := match parameter.form.standard with
    | some value => " [default: " ++ value ++ "]"
    | none => ""
  (short ++ parameter.shown, parameter.form.purpose ++ standard)

def ofNamed (parameters : List Parameter) : HelpTable := ⟨"Options", parameters.map namedRow⟩

def ofPositional (parameters : List Parameter) : HelpTable :=
  ⟨"Arguments", parameters.map fun parameter => (parameter.shown, parameter.form.purpose)⟩

end HelpTable

/-- How a command is called: what has to be given is named. -/
def Subcommand.pattern (command : Subcommand) : String :=
  command.name ++ " [OPTIONS]"
    ++ String.join (command.required.map fun parameter => " " ++ parameter.shown)

namespace Topic

/-- What is said first. -/
def purpose : Topic → String
  | program => programPurpose
  | command subcommand => subcommand.purpose
  | help => helpPurpose

/-- How the program is called. -/
def pattern : Topic → String
  | program => "<COMMAND>"
  | command subcommand => subcommand.pattern
  | help => helpName ++ " [COMMAND]..."

def tables : Topic → List HelpTable
  | program => [
      ⟨"Commands", Subcommand.all.map (fun command => (command.name, command.purpose))
        ++ [(helpName, helpPurpose)]⟩,
      .ofNamed [.help, .version]]
  | command subcommand => [.ofPositional subcommand.positional, .ofNamed subcommand.named]
  | help => [⟨"Arguments", [("[COMMAND]...", "Print help for the subcommand(s)")]⟩]

def page (topic : Topic) : String :=
  topic.purpose ++ "\n\nUsage: " ++ programName ++ " " ++ topic.pattern ++ "\n"
    ++ String.join (topic.tables.map HelpTable.text)

end Topic

end BreakpointProps.CommandLine
