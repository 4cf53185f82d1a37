import GenericNetlink.Family
import GenericNetlink.Socket.Transport

/-!
Queries to the controller: list every family, or show one.
-/

namespace GenericNetlink

/-- A question to the controller: which families are there, or what is the family of this name? -/
inductive Query where
  | list
  | get (name : String)
  deriving DecidableEq

namespace Query

/-- How a query is asked: how many milliseconds to wait for a reply, and whether requests carry the
port of the socket, and not the number of the process. -/
structure Options where
  timeout : UInt64 := 2000
  boundPort : Bool := false
  deriving DecidableEq

/-- The settings of the connection that a query is asked over. -/
def Options.settings (o : Options) : Settings where
  receiveTimeout := some (.ofMilliseconds o.timeout)
  portSource := if o.boundPort then .bound else .process

/-- The message that asks the query. -/
def message (order : ByteOrder) : Query → Except Error Message
  | list => .ok Controller.listRequest
  | get name => Controller.getRequest order name

/-- The lines that show the families of a reply, up to the first message that describes none, and
the fault of that message. -/
def describe (order : ByteOrder) : List Message → List String × Except Error Unit
  | [] => ([], .ok ())
  | m :: rest =>
    match Family.ofMessage order m with
    | .error e => ([], .error e)
    | .ok family =>
      let (lines, result) := describe order rest
      (family.lines ++ lines, result)

/-- What asking a query has led to: whether it went well, the lines printed, also if it did not, and
the kernel, with no socket open. -/
structure Outcome where
  result : Except Error Unit
  printed : List String
  kernel : Kernel

/-- What it leads to when a query is given up or done with. -/
def Outcome.leaving (c : Connection Socket) (printed : List String) (result : Except Error Unit) :
    Outcome :=
  { result, printed, kernel := c.transport.release }

/-- What is said about a query that went wrong. -/
def complaint (e : Error) : String :=
  "Error: " ++ if e.isNotFound then "family not found" else e.message

/-- Asks a query over a connection of its own and prints what comes back. -/
def run (q : Query) (o : Options) (sequence : UInt32) (k : Kernel) : Outcome :=
  match Connection.openOn o.settings sequence k with
  | .error (e, k) => { result := .error e, printed := [], kernel := k }
  | .ok c =>
    match q.message c.order with
    | .error e => .leaving c [] (.error e)
    | .ok m =>
      match c.request m with
      | (.error e, c) => .leaving c [] (.error e)
      | (.ok replies, c) =>
        match describe c.order replies with
        | (printed, .error e) => .leaving c printed (.error e)
        | (printed, .ok ()) =>
          let (result, c) := c.close
          .leaving c printed result

end Query

end GenericNetlink
