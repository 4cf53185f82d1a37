import GenericNetlink.Connection
import GenericNetlink.Socket.Kernel

/-!
Sockets: the transport that the kernel provides.

Opening one follows a plan of system calls that the settings determine (`Settings.plan`). The
first required call that fails ends it, and a socket that was open by then is closed again.
-/

namespace GenericNetlink

/-- A call of a plan, and whether the plan fails with it. -/
structure PlannedCall where
  call : SystemCall
  required : Bool
  deriving DecidableEq

/-- The calls on a socket that has been opened, in order. -/
def Settings.plan (s : Settings) : List PlannedCall :=
  let option (o : SocketOption) : PlannedCall := ⟨.setsockopt o, true⟩
  [⟨.bindAnywhere, true⟩, ⟨.getsockname, true⟩] ++
    (if s.extendedAck then [⟨.setsockopt (.extendedAck 1), false⟩] else []) ++
    (s.receiveTimeout.map fun d => option (.receiveTimeout d.toTimeval)).toList ++
    (s.sendTimeout.map fun d => option (.sendTimeout d.toTimeval)).toList ++
    (s.receiveBuffer.map fun n => option (.receiveBuffer (bufferSize n))).toList

/-- Makes the calls of a plan, up to the first required one that fails. -/
def Kernel.follow : List PlannedCall → Kernel → Except Errno Unit × Kernel
  | [], k => (.ok (), k)
  | p :: rest, k =>
    match k.perform p.call with
    | (.ok (), k) => follow rest k
    | (.error e, k) => if p.required then (.error e, k) else follow rest k

/-- A socket, with the port that the kernel gave it, and the kernel it was opened on. An open one
holds a descriptor. -/
structure Socket where
  kernel : Kernel
  isOpen : Bool
  portId : UInt32

namespace Socket

/-- Opens a socket and configures it; on failure the kernel is given back without an open
socket. -/
def openOn (settings : Settings) (k : Kernel) : Except (Error × Kernel) Socket :=
  match k.openSocket with
  | (.error e, k) => .error (.socket e, k)
  | (.ok (), k) =>
    match k.follow settings.plan with
    | (.error e, k) => .error (.socket e, k.close.2)
    | (.ok (), k) => .ok { kernel := k, isOpen := true, portId := k.port }

/-- The descriptor of the socket, or a number that no descriptor has. -/
def descriptor (s : Socket) : Int32 := if s.isOpen then s.kernel.descriptor else -1

/-- Makes a call on the kernel if the socket is open. -/
def call {α : Type} (f : Kernel → Except Errno α × Kernel) (s : Socket) :
    Except Errno α × Socket :=
  if s.isOpen then
    let (result, kernel) := f s.kernel
    (result, { s with kernel })
  else (.error .badDescriptor, s)

/-- Closes the socket, which then holds no descriptor also if the kernel fails to close it. -/
def close (s : Socket) : Except Errno Unit × Socket :=
  let (result, t) := s.call Kernel.close
  (result, { t with isOpen := false })

/-- The kernel without the socket, which is closed if it still was open. -/
def release (s : Socket) : Kernel :=
  s.close.2.kernel

end Socket

end GenericNetlink
