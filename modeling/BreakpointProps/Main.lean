import BreakpointProps.CommandLine.Response
import BreakpointProps.Disk
import Std.Time.DateTime.Timestamp

/-!
The program: it looks at the files that its command line can be about, finds its response, makes the
changes and prints what there is to print.
-/

namespace BreakpointProps.Program

partial def readToEnd (stream : IO.FS.Stream) (content : ByteArray) : IO ByteArray := do
  let next ← stream.read 65536
  if next.isEmpty then return content
  readToEnd stream (content ++ next)

def now : IO Timestamp := do
  let nanos := (← Std.Time.Timestamp.now).toNanosecondsSinceUnixEpoch.val
  return ⟨nanos.fdiv 1000000000, (nanos.fmod 1000000000).toNat⟩

/-- Find the response to a command line and act upon it. -/
def respond (words : List String) : IO UInt32 := do
  let began ← IO.monoMsNow
  let start ← now
  let command := (Command.ofWords words).toOption
  let files ← Disk.read (command.elim {} Command.scope)
  let input ←
    if command.any Command.readsInput then readToEnd (← IO.getStdin) .empty else pure .empty
  let mode := Mode.ofEnvironment (← IO.getEnv "NODE_ENV")
  let clock : BuildClock := ⟨start, (← IO.monoMsNow) - began⟩
  let response := Response.ofWords { files, input, mode, clock } words
  Disk.change files response.files
  (← IO.getStdout).putStr response.output
  (← IO.getStderr).putStr response.complaint
  return response.code.toUInt32

end BreakpointProps.Program

/-- The program. -/
def main (words : List String) : IO UInt32 := BreakpointProps.Program.respond words
