import GenericNetlink.Socket.SystemCall
import GenericNetlink.Transport.Script

/-!
A kernel in memory: it answers the system calls of one process, whose one socket it knows, and
remembers them in order.
-/

namespace GenericNetlink

/-- The kernel of a host: the number of the process, the port and the descriptor that its socket
gets, the datagrams to be received, whether the socket is open, and the calls made, failed ones too.
A call fails by the number of calls made before it and by what it asks for. That receiving from an
empty inbox fails at once, with `EAGAIN`, is an assumption: a kernel lets the process wait, for as
long as the timeout of the socket says or for ever if there is none. -/
structure Kernel extends Host where
  processId : UInt32
  port : UInt32
  descriptor : Int32
  faults : Nat → Operation → Option Errno := fun _ _ => none
  inbox : Inbox := []
  live : Bool := false
  calls : List SystemCall := []

namespace Kernel

/-- The kernel with an operation that fails from now on, or no longer does. -/
def setFault (k : Kernel) (op : Operation) (fault : Option Errno) : Kernel :=
  { k with faults := fun n o => if o = op then fault else k.faults n o }

/-- The kernel that remembers a call. -/
def record (call : SystemCall) (k : Kernel) : Kernel :=
  { k with calls := k.calls ++ [call] }

/-- The fault that the next call meets if it asks for the given. -/
def fault (k : Kernel) (op : Operation) : Option Errno := k.faults k.calls.length op

/-- How a call on the socket fares before anything is done: it fails on a closed socket, and
where a fault is set. -/
def check (call : SystemCall) (k : Kernel) : Except Errno Unit :=
  if k.live then Errno.orDone (k.fault call.operation) else .error .badDescriptor

/-- Opens the socket. -/
def openSocket (k : Kernel) : Except Errno Unit × Kernel :=
  let recorded := k.record .openSocket
  match k.fault .socket with
  | some e => (.error e, recorded)
  | none => (.ok (), { recorded with live := true })

/-- Makes a call that changes nothing but the record: binding, asking, setting, sending. -/
def perform (call : SystemCall) (k : Kernel) : Except Errno Unit × Kernel :=
  (k.check call, k.record call)

/-- Receives, or peeks at, the next datagram. -/
def receive (peeks : Bool) (size : Nat) (k : Kernel) : Except Errno Bytes × Kernel :=
  let call := SystemCall.recv size (if peeks then SystemCall.peekFlag else 0)
  let recorded := k.record call
  match k.check call with
  | .error e => (.error e, recorded)
  | .ok () =>
    let (result, inbox) := if peeks then k.inbox.peek size else k.inbox.receive size
    (result, { recorded with inbox })

/-- Closes the socket, also if it fails. -/
def close (k : Kernel) : Except Errno Unit × Kernel :=
  (k.check .close, { k.record .close with live := false })

end Kernel

end GenericNetlink
