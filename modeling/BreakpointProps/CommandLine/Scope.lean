import BreakpointProps.CommandLine.Command

/-!
Which files a command can be about, as far as it tells before any file is looked at.
-/

namespace BreakpointProps

/-- The paths that a command can look at: single ones, and directories with all that is in them. -/
structure Scope where
  paths : List Path := []
  trees : List Path := []
  deriving DecidableEq, Repr, Inhabited

namespace Scope

/-- Does a character stand for more than itself in a pattern? -/
def isWild (c : Char) : Bool := c == '*' || c == '?' || c == '['

/-- The directory below which all is that a pattern can stand for: what comes before its first segment
with a character that stands for more than itself. The last segment is no directory. -/
def directoryOf (pattern : String) : Path :=
  let start : Path := if (Path.mk pattern).isAbsolute then ⟨"/"⟩ else ⟨"."⟩
  let plain := (Path.segments pattern.toList).dropLast.takeWhile fun segment => !segment.any isWild
  plain.foldl (fun path segment => path.join ⟨String.ofList segment⟩) start

end Scope

/-- Which files a command can be about. -/
def Command.scope : Command → Scope
  | transform request => { paths := request.config.toList ++ request.sourceMap.toList }
  | build request => {
      paths := request.config.toList ++ request.report.toList
      trees := request.input.map Scope.directoryOf ++ [request.outDirectory] }
  | plugin request => { paths := request.config.toList }

def Command.readsInput : Command → Bool
  | transform _ => true
  | _ => false

end BreakpointProps
