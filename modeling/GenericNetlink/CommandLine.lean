import GenericNetlink.Query

/-!
The command line: which query to ask, and what the replies at hand were written for.
-/

namespace GenericNetlink

/-- What a command line asks for: a query and how it is asked, and the number of the first request,
the number of the process, the port of the socket and the byte order of the host that the replies
were written for. -/
structure Invocation where
  query : Query
  options : Query.Options := {}
  sequence : UInt32 := 1
  processId : UInt32 := 1
  port : UInt32 := 1
  order : ByteOrder := .little

namespace Invocation

/-- How the command line is written. -/
def usage : String :=
  "usage: [--timeout MILLISECONDS] [--bound-port] [--sequence N] [--process N] [--port N]\n" ++
  "       [--big-endian] (list | get NAME)\n" ++
  "Replies are read from standard input, one datagram a line in hexadecimal."

/-- A number below a bound. -/
def number? (bound : Nat) (s : String) : Option Nat :=
  s.toNat?.filter (· < bound)

/-- Reads the words of a command line: options first, then the query. -/
def ofWords? : List String → Option Invocation
  | ["list"] => some { query := .list }
  | ["get", name] => some { query := .get name }
  | "--bound-port" :: rest => do
    let i ← ofWords? rest
    return { i with options := { i.options with boundPort := true } }
  | "--big-endian" :: rest => return { ← ofWords? rest with order := .big }
  | option :: value :: rest => do
    let i ← ofWords? rest
    match option with
    | "-t" | "--timeout" =>
      let n ← number? UInt64.size value
      return { i with options := { i.options with timeout := UInt64.ofNat n } }
    | "--sequence" => return { i with sequence := UInt32.ofNat (← number? UInt32.size value) }
    | "--process" => return { i with processId := UInt32.ofNat (← number? UInt32.size value) }
    | "--port" => return { i with port := UInt32.ofNat (← number? UInt32.size value) }
    | _ => none
  | _ => none

/-- Asks the query of a kernel that answers with the given datagrams. The socket gets the descriptor
behind those of the standard streams. -/
def run (i : Invocation) (replies : List Bytes) : Query.Outcome :=
  i.query.run i.options i.sequence
    { order := i.order, processId := i.processId, port := i.port, descriptor := 3
      inbox := replies.map Delivery.ofBytes }

end Invocation

end GenericNetlink
