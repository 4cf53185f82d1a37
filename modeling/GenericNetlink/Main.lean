import GenericNetlink.CommandLine
import GenericNetlink.Text.Hex

/-!
The program: it replays a conversation with the controller and shows the families in it.
-/

namespace GenericNetlink

/-- The lines of a stream up to its end, in front of which stand those already read, last one
first. -/
partial def readLines (input : IO.FS.Stream) (read : List String) : IO (List String) := do
  let line ← input.getLine
  if line.isEmpty then return read.reverse
  readLines input (line.trimAscii.toString :: read)

end GenericNetlink

open GenericNetlink in
/-- Asks the query of the command line and exits with one if it goes wrong, with two if the command
line or a reply cannot be read. -/
def main (args : List String) : IO UInt32 := do
  match Invocation.ofWords? args with
  | none =>
    IO.eprintln Invocation.usage
    return 2
  | some invocation =>
    let lines ← readLines (← IO.getStdin) []
    match (lines.filter (! ·.isEmpty)).mapM Hex.decode? with
    | none =>
      IO.eprintln "Error: a reply is no hexadecimal text"
      return 2
    | some replies =>
      let outcome := invocation.run replies
      outcome.printed.forM IO.println
      match outcome.result with
      | .ok () => return 0
      | .error e =>
        IO.eprintln (Query.complaint e)
        return 1
