import GenericNetlink.Attribute.Stream
import GenericNetlink.Message.Basic

/-!
Generic netlink commands: what the messages of a family carry.

A command is four bytes, its number, the version of the family's interface and two reserved ones,
and then attributes. The reserved bytes are written as zeros and never read back.
-/

namespace GenericNetlink

/-- A command of a family, for a version of the family's interface, with two bytes without a meaning
and what is behind the header, usually attributes. -/
structure Command where
  number : UInt8
  version : UInt8
  reserved : UInt8 × UInt8 := (0, 0)
  payload : Bytes := []
  deriving DecidableEq, Inhabited

namespace Command

/-- The size of the header. -/
def headerSize : Nat := 4

/-- Writes an attribute behind the payload, in place. -/
def add (order : ByteOrder) (a : Attribute) : ExceptT Error (StateM Command) Unit := do
  let (_, bytes) ← liftM (a.encode order)
  modify fun c => { c with payload := c.payload ++ bytes }

/-- The command with an attribute behind its payload. -/
def push (order : ByteOrder) (c : Command) (a : Attribute) : Except Error Command :=
  (a.encode order).map fun (_, bytes) => { c with payload := c.payload ++ bytes }

/-- The attributes that the command carries. -/
def attributes (order : ByteOrder) (c : Command) : List (Except Error Attribute) :=
  Attribute.items order c.payload

/-- Header and payload, without padding. -/
def bytes (c : Command) : Bytes :=
  c.number :: c.version :: 0 :: 0 :: c.payload

/-- Reads a header and takes the rest as the payload. -/
def decode : Bytes → Except Error Command
  | number :: version :: _ :: _ :: payload => .ok { number, version, payload }
  | short => .error (.malformedMessage (.shortCommand short.length))

/-- Reading back what was written only loses the reserved bytes. -/
@[simp] theorem decode_bytes (c : Command) :
    decode c.bytes = .ok { c with reserved := (0, 0) } := rfl

end Command

namespace Message

/-- The message that carries a command to a family. -/
def ofCommand (family flags : UInt16) (c : Command) : Message :=
  make family flags c.bytes

/-- The command that a message carries. -/
def command (m : Message) : Except Error Command := Command.decode m.payload

end Message

end GenericNetlink
