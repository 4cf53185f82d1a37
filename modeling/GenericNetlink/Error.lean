import GenericNetlink.Errno
import GenericNetlink.Text.Utf8

/-!
What can go wrong, by cause, and how each cause is worded.

Codecs fail with a `MessageFault` or an `AttributeFault`, the transport with an `Errno`, and the
kernel with the number it put into an error record (`Error.ofErrno`).
-/

namespace GenericNetlink

/-- The integers wider than a byte that an attribute may hold. -/
inductive Scalar where
  | u16
  | u32
  | i32
  | u64
  deriving DecidableEq

namespace Scalar

/-- The name of the integer type. -/
def name : Scalar → String
  | u16 => "u16"
  | u32 => "u32"
  | i32 => "i32"
  | u64 => "u64"

/-- The number of bytes it takes. -/
def width : Scalar → Nat
  | u16 => 2
  | u32 => 4
  | i32 => 4
  | u64 => 8

end Scalar

/-- Why bytes are no message. The header of a message or a command is cut off, or it declares a
length below its own or beyond the `size` bytes there are; in writing, a message would take `size`
bytes, which its length field cannot say. -/
inductive MessageFault where
  | shortHeader (size : Nat)
  | badLength (declared size : Nat)
  | shortCommand (size : Nat)
  | tooLong (size : Nat)
  | other (text : String)
  deriving DecidableEq

/-- Why bytes are no attribute, or its value not what was asked for. The value has `size` bytes,
more than the length field allows; the header is cut off, or declares a length below its own or
beyond the `size` bytes there are; the value is empty, too short for an integer, or no text. -/
inductive AttributeFault where
  | tooLarge (size : Nat)
  | shortHeader (size : Nat)
  | badLength (declared size : Nat)
  | empty
  | truncated (scalar : Scalar)
  | notText (fault : Utf8.Fault)
  | other (text : String)
  deriving DecidableEq

/-- Why encoding, decoding or an exchange failed. A call on the socket met an error number, or a
reply is not one to the request: it carries other numbers, is nothing but an end marker, or is an
error record, with its number and explanation or of `size` bytes, too short for a code. -/
inductive Error where
  | malformedMessage (fault : MessageFault)
  | invalidAttribute (fault : AttributeFault)
  | socket (errno : Errno)
  | send (errno : Errno)
  | receive (errno : Errno)
  | close (errno : Errno)
  | sequenceMismatch (expected actual : UInt32)
  | portIdMismatch (expected actual : UInt32)
  | unexpectedDone
  | invalidErrorCode (size : Nat)
  | kernel (errno : Errno) (text : String)
  | connectionClosed
  deriving DecidableEq

/-- The wording of a message fault. -/
def MessageFault.message : MessageFault → String
  | .shortHeader size => "header needs 16 bytes, got " ++ toString size
  | .badLength declared size =>
    "invalid message length " ++ toString declared ++ " for " ++ toString size ++ " byte buffer"
  | .shortCommand size => "GENL header needs 4 bytes, got " ++ toString size
  | .tooLong size => "message of " ++ toString size ++ " bytes exceeds the 32-bit length field"
  | .other text => text

/-- The wording of an attribute fault. -/
def AttributeFault.message : AttributeFault → String
  | .tooLarge size =>
    "value of " ++ toString size ++ " bytes exceeds the 65531 byte attribute limit"
  | .shortHeader size => "header needs 4 bytes, got " ++ toString size
  | .badLength declared size =>
    "invalid attribute length " ++ toString declared ++ " for " ++ toString size ++ " byte buffer"
  | .empty => "empty u8 attribute"
  | .truncated scalar => "truncated " ++ scalar.name ++ " attribute"
  | .notText fault => "invalid UTF-8: " ++ fault.message
  | .other text => text

namespace Error

/-- The report of an error. -/
def message : Error → String
  | malformedMessage fault => "malformed message: " ++ fault.message
  | invalidAttribute fault => "invalid attribute: " ++ fault.message
  | socket errno => "socket error: " ++ errno.describe
  | send errno => "send error: " ++ errno.describe
  | receive errno => "receive error: " ++ errno.describe
  | close errno => "close error: " ++ errno.describe
  | sequenceMismatch expected actual =>
    "sequence mismatch: expected " ++ toString expected ++ ", got " ++ toString actual
  | portIdMismatch expected actual =>
    "port ID mismatch: expected " ++ toString expected ++ ", got " ++ toString actual
  | unexpectedDone => "reply contained only a DONE message"
  | invalidErrorCode size =>
    "invalid error code: error record payload is " ++ toString size ++ " bytes"
  | kernel errno text =>
    "kernel error: " ++ text ++ " (errno " ++ toString errno.code.toInt ++ ")"
  | connectionClosed => "using closed connection"

/-- The error of a kernel code, which is an error number with its sign changed; a detail stands
in front of the system's text. -/
def ofErrno (code : Int32) (detail : Option String) : Error :=
  let errno := Errno.negated ⟨code⟩
  match detail with
  | none => kernel errno errno.describe
  | some detail => kernel errno (detail ++ ": " ++ errno.describe)

/-- The error number the kernel answered with. -/
def errno : Error → Option Errno
  | kernel errno _ => some errno
  | _ => none

/-- The error number of the transport call that failed. -/
def source : Error → Option Errno
  | socket errno | send errno | receive errno | close errno => some errno
  | _ => none

/-- Whether the kernel says that something does not exist. -/
def isNotFound (e : Error) : Bool :=
  e.errno = some .noEntry || e.errno = some .noDevice

/-- Whether the kernel refuses for lack of rights. -/
def isPermissionDenied (e : Error) : Bool :=
  e.errno = some .notPermitted || e.errno = some .accessDenied

/-- Whether sending or receiving took longer than its timeout. -/
def isTimeout : Error → Bool
  | send errno | receive errno => errno = .unavailable || errno = .timedOut
  | _ => false

/-- Whether this is an acknowledgement, which the kernel writes as error number zero. -/
def isAck (e : Error) : Bool := e.errno = some .success

/-- Whether the kernel raised this error. -/
def isKernel : Error → Bool
  | kernel .. => true
  | _ => false

end Error

end GenericNetlink
