import GenericNetlink.Bytes
import GenericNetlink.Settings

/-!
The system calls a socket makes, with the numbers that the kernel's interface gives them.
-/

namespace GenericNetlink

/-- A span of time as the kernel takes it. -/
structure Timeval where
  seconds : Int64
  microseconds : Int64
  deriving DecidableEq

/-- The span in whole microseconds; seconds beyond the kernel's range count as the most it can
take. -/
def Duration.toTimeval (d : Duration) : Timeval where
  seconds := Int64.ofNat (min d.seconds.toNat 0x7FFFFFFFFFFFFFFF)
  microseconds := Int64.ofNat (d.nanoseconds.toNat / 1000)

/-- A socket option and the value it is set to. -/
inductive SocketOption where
  | extendedAck (value : Int32)
  | receiveTimeout (value : Timeval)
  | sendTimeout (value : Timeval)
  | receiveBuffer (value : Int32)
  deriving DecidableEq

/-- The level of an option. -/
def SocketOption.level : SocketOption → Nat
  | extendedAck _ => 270
  | receiveTimeout _ | sendTimeout _ | receiveBuffer _ => 1

/-- The number of an option on its level. -/
def SocketOption.number : SocketOption → Nat
  | extendedAck _ => 11
  | receiveTimeout _ => 20
  | sendTimeout _ => 21
  | receiveBuffer _ => 8

/-- The size of a receive buffer as the kernel takes it. -/
def bufferSize (n : UInt64) : Int32 := Int32.ofNat (min n.toNat 0x7FFFFFFF)

/-- A call to the kernel. -/
inductive SystemCall where
  | socket (domain type protocol : Nat)
  | bind (family port groups : Nat)
  | getsockname
  | setsockopt (option : SocketOption)
  | send (datagram : Bytes) (flags : Nat)
  | recv (size flags : Nat)
  | close
  deriving DecidableEq

namespace SystemCall

/-- The address family of netlink. -/
def netlink : Nat := 16

/-- The protocol of generic netlink. -/
def genericProtocol : Nat := 16

/-- The type of a socket for datagrams that a program started later does not inherit. -/
def datagramType : Nat := 0x80002

/-- The flag of a receive that leaves the datagram. -/
def peekFlag : Nat := 2

/-- The call that opens a generic netlink socket. -/
def openSocket : SystemCall := .socket netlink datagramType genericProtocol

/-- The call that has the kernel choose an address. -/
def bindAnywhere : SystemCall := .bind netlink 0 0

end SystemCall

/-- What the kernel is asked for by a call. -/
inductive Operation where
  | socket
  | bind
  | getsockname
  | extendedAck
  | receiveTimeout
  | sendTimeout
  | receiveBuffer
  | send
  | recv
  | close
  deriving DecidableEq

/-- What an option asks for. -/
def SocketOption.operation : SocketOption → Operation
  | extendedAck _ => .extendedAck
  | receiveTimeout _ => .receiveTimeout
  | sendTimeout _ => .sendTimeout
  | receiveBuffer _ => .receiveBuffer

/-- What a call asks for. -/
def SystemCall.operation : SystemCall → Operation
  | socket .. => .socket
  | bind .. => .bind
  | getsockname => .getsockname
  | setsockopt option => option.operation
  | send .. => .send
  | recv .. => .recv
  | close => .close

end GenericNetlink
