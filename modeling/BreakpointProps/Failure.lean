import BreakpointProps.Build.Policy
import BreakpointProps.Build.Request
import BreakpointProps.Config.Load
import BreakpointProps.Glob.Expansion

/-!
Why a command fails.
-/

namespace BreakpointProps

/-- Why a command fails. -/
inductive Failure where
  | files (fault : FileSystem.Fault)
  | pattern (flaw : Glob.Flaw)
  | unreadable (directory : Glob.Unreadable)
  | noFilesFound
  | output (path : Path) (fault : FileSystem.Fault)
  | config (fault : Config.LoadFault)
  | request (flaw : BuildRequest.Flaw)
  | input (fault : FileSystem.Fault)
  | violation (reason : Violation)
  | unknownBundler (text : String)
  deriving Inhabited

namespace Failure

/-- What lies behind a failure if it has a message of its own. -/
def source? : Failure → Option String
  | files fault => some fault.message
  | pattern flaw => some flaw.message
  | unreadable directory =>
    some ("attempting to read \x60" ++ directory.path.text ++ "\x60 resulted in an error: "
      ++ directory.fault.message)
  | _ => none

def message (failure : Failure) : String :=
  match failure with
  | files fault => "IO error: " ++ fault.message
  | pattern flaw => "Pattern error: " ++ flaw.message
  | unreadable _ => "Glob error: " ++ (source? failure).getD ""
  | noFilesFound => "No files found matching the provided patterns"
  | output path fault => "Failed to write output to " ++ path.text ++ ": " ++ fault.message
  | config fault => "Configuration error: " ++ fault.message
  | request flaw => "Invalid input: " ++ flaw.message
  | input fault => "Input error: Failed to read from stdin: " ++ fault.message
  | violation reason => "Security violation: " ++ reason.message
  | unknownBundler text => "Unknown bundler target: " ++ text

end Failure

end BreakpointProps
