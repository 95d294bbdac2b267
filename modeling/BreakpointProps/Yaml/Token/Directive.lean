import BreakpointProps.Yaml.Token.Tag

/-!
Directives: what stands before a document and tells how to read it.
-/

namespace BreakpointProps.Yaml.Source

def maxVersionDigits : Nat := 9

def versionNumber (source : Source) (start : Mark) : Except Flaw (Nat × Source) :=
  let (digits, after) := source.span Char.isDigit
  if digits.length > maxVersionDigits then (source.skip maxVersionDigits).fail .longVersion .version start
  else if digits.isEmpty then source.fail .noVersion .version start
  else .ok (digits.foldl (fun n c => 10 * n + (c.toNat - 48)) 0, after)

/-- The version of the format that a document uses. -/
def version (source : Source) (start : Mark) : Except Flaw (Token × Source) := do
  let (major, after) ← (source.skipWhile isBlank).versionNumber start
  if after.startsWith '.' then
    let (minor, after) ← (after.skip 1).versionNumber start
    return (.version major minor, after)
  else after.fail .noVersionPoint .version start

def handleDirective (source : Source) (start : Mark) : Except Flaw (Token × Source) := do
  let (name, after) ← (source.skipWhile isBlank).handle true start
  if !after.nextIs isBlank then after.fail .noBlank .handle start
  else
    let (value, after) ← (after.skipWhile isBlank).uri true true "" start
    if after.isGapAt 0 then return (.handle name value, after)
    else after.fail .noBlankOrBreak .handle start

/-- The rest of a line that may hold a comment, and the break behind it. -/
def restOfLine (source : Source) (activity : Activity) (start : Mark) : Except Flaw Source :=
  let after := (source.skipWhile isBlank).skipComment
  if after.isAtLineEnd then .ok after.lineBreak.2 else after.fail .noLineEnd activity start

/-- A directive with the rest of its line. The token ends before that. -/
def directive (source : Source) : Except Flaw (Lexeme × Source) := do
  let start := source.mark
  let (name, after) := (source.skip 1).span isNameChar
  if name.isEmpty then after.fail .noDirectiveName .directive start
  else if !after.isGapAt 0 then after.fail .badDirectiveName .directive start
  else
    let (token, after) ←
      if name == "YAML".toList then after.version start
      else if name == "TAG".toList then after.handleDirective start
      else after.fail .unknownDirective .directive start
    return (⟨token, start, after.mark⟩, ← after.restOfLine .directive start)

end BreakpointProps.Yaml.Source
