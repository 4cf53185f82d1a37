import GenericNetlink.Message.Header

/-!
Messages: a header and a payload, how they are written, and how a datagram is read.
-/

namespace GenericNetlink

/-- A header, whose length is right once the message has been written, and the bytes behind it. -/
structure Message where
  header : Header := {}
  payload : Bytes := []
  deriving DecidableEq, Inhabited

namespace Message

/-- A message that no connection has numbered yet. -/
def make (type flags : UInt16) (payload : Bytes) : Message :=
  { header := .make type flags, payload }

/-- Whether the message is an error record or an acknowledgement. -/
def isError (m : Message) : Bool := m.header.isError

/-- Whether the message ends a multi-part reply. -/
def isDone (m : Message) : Bool := m.header.isDone

/-- Whether the message is part of a multi-part reply. -/
def isMulti (m : Message) : Bool := m.header.isMulti

/-- The size of header and payload. -/
def size (m : Message) : Nat := Header.size + m.payload.length

/-- The room that the message takes on the wire, padding included. -/
def wireSize (m : Message) : Nat := wordAlign m.size

/-- The least size that the length field cannot say. -/
def sizeLimit : Nat := UInt32.size

/-- The message with its length set to what its payload needs. -/
def sealed (m : Message) : Except Error Message :=
  if m.size < sizeLimit then
    .ok { m with header := { m.header with length := UInt32.ofNat m.size } }
  else .error (.malformedMessage (.tooLong m.size))

/-- Header, payload and padding, with the length as it is. -/
def wire (order : ByteOrder) (m : Message) : Bytes :=
  (m.header.bytes order ++ m.payload).padded

/-- Writes the message: with its length set, and the bytes that it then has. -/
def encode (order : ByteOrder) (m : Message) : Except Error (Message × Bytes) :=
  m.sealed.map fun m => (m, m.wire order)

/-- The format of messages. -/
def format (order : ByteOrder) : Format Message where
  headerSize := Header.size
  headerSize_pos := by decide
  declared header := (Header.ofBytes order header).length.toNat
  build header payload := { header := Header.ofBytes order header, payload }
  shortHeader size := .malformedMessage (.shortHeader size)
  badLength declared size := .malformedMessage (.badLength declared size)

/-- The message at the front of a buffer. -/
def decode (order : ByteOrder) (data : Bytes) : Except Error Message :=
  (format order).decode data

/-- The messages of a buffer, and the fault that stops them. -/
def items (order : ByteOrder) (data : Bytes) : List (Except Error Message) :=
  (format order).items data

/-- The messages of a buffer, or the fault that stops them. -/
def decodeAll (order : ByteOrder) (data : Bytes) : Except Error (List Message) :=
  (format order).collect data

/-- Writing succeeds exactly when the length can count the payload. -/
theorem sealed_eq_ok_iff {m n : Message} :
    m.sealed = .ok n ↔ m.size < sizeLimit ∧
      n = { m with header := { m.header with length := UInt32.ofNat m.size } } := by
  by_cases h : m.size < sizeLimit
  · simp [sealed, h, eq_comm]
  · simp [sealed, h]

@[simp] theorem length_wire (order : ByteOrder) (m : Message) :
    (m.wire order).length = m.wireSize := by
  simp [wire, wireSize, size]

end Message

end GenericNetlink
