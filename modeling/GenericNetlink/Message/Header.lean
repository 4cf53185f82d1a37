import GenericNetlink.ByteOrder
import GenericNetlink.Error
import GenericNetlink.Format

/-!
The header of a message: sixteen bytes that say its length, its type, its flags, the request it
belongs to and the port it comes from.
-/

namespace GenericNetlink

/-! ### Types of messages -/

namespace MessageType

/-- Nothing; to be discarded. -/
def noop : UInt16 := 1
/-- An error record, or an acknowledgement. -/
def error : UInt16 := 2
/-- The end of a multi-part reply. -/
def done : UInt16 := 3
/-- Data was lost. -/
def overrun : UInt16 := 4
/-- The first type that belongs to a protocol family. -/
def firstFamily : UInt16 := 0x10

end MessageType

/-! ### Flags of messages -/

namespace MessageFlag

/-- Set on every request. -/
def request : UInt16 := 0x01
/-- Part of a multi-part reply. -/
def multi : UInt16 := 0x02
/-- Asks for an acknowledgement. -/
def ack : UInt16 := 0x04
/-- Asks to have the request echoed. -/
def echo : UInt16 := 0x08
/-- The dump was interrupted and may be inconsistent. -/
def dumpInterrupted : UInt16 := 0x10
/-- The dump was filtered as asked. -/
def dumpFiltered : UInt16 := 0x20

/-- Of a query: return the whole table. -/
def root : UInt16 := 0x100
/-- Of a query: return all that match. -/
def matching : UInt16 := 0x200
/-- Of a query: return a snapshot. -/
def atomic : UInt16 := 0x400
/-- Of a query: return everything. -/
def dump : UInt16 := root ||| matching

/-- Of a creation: replace what exists. -/
def replace : UInt16 := 0x100
/-- Of a creation: fail if it exists. -/
def exclusive : UInt16 := 0x200
/-- Of a creation: create what does not exist. -/
def create : UInt16 := 0x400
/-- Of a creation: add to the end. -/
def append : UInt16 := 0x800

/-- Of an error record: only the header of the request is echoed. -/
def capped : UInt16 := 0x100
/-- Of an error record: attributes follow the echoed request. -/
def ackAttributes : UInt16 := 0x200

end MessageFlag

/-! ### Headers -/

/-- The header of a message: the size of header and payload, the type and flags, the number of the
request that the message is or answers, and the port of the requesting side. -/
structure Header where
  length : UInt32 := 0
  type : UInt16 := 0
  flags : UInt16 := 0
  sequence : UInt32 := 0
  portId : UInt32 := 0
  deriving DecidableEq, Inhabited

namespace Header

/-- The size of a header. -/
def size : Nat := 16

/-- The header of a message without payload, sequence number and port. -/
def make (type flags : UInt16) : Header := { length := 16, type, flags }

/-- Whether the message is an error record or an acknowledgement. -/
def isError (h : Header) : Bool := h.type == MessageType.error

/-- Whether the message ends a multi-part reply. -/
def isDone (h : Header) : Bool := h.type == MessageType.done

/-- Whether the message is part of a multi-part reply. -/
def isMulti (h : Header) : Bool := h.flags &&& MessageFlag.multi != 0

/-- The bytes of a header. -/
def bytes (order : ByteOrder) (h : Header) : Bytes :=
  order.bytesOfU32 h.length ++ (order.bytesOfU16 h.type ++ (order.bytesOfU16 h.flags ++
    (order.bytesOfU32 h.sequence ++ order.bytesOfU32 h.portId)))

/-- The header that sixteen bytes stand for. -/
def ofBytes (order : ByteOrder) (b : Bytes) : Header where
  length := order.u32OfBytes (b.take 4)
  type := order.u16OfBytes ((b.drop 4).take 2)
  flags := order.u16OfBytes ((b.drop 6).take 2)
  sequence := order.u32OfBytes ((b.drop 8).take 4)
  portId := order.u32OfBytes ((b.drop 12).take 4)

/-- The header at the front of a buffer; its length is not checked. -/
def decode (order : ByteOrder) (data : Bytes) : Except Error Header :=
  if data.hasAtLeast size then .ok (ofBytes order (data.take size))
  else .error (.malformedMessage (.shortHeader data.length))

@[simp] theorem length_bytes (order : ByteOrder) (h : Header) :
    (h.bytes order).length = size := by
  simp [bytes, size]

@[simp] theorem ofBytes_bytes (order : ByteOrder) (h : Header) :
    ofBytes order (h.bytes order) = h := by
  have take_of {n : Nat} {a b : Bytes} (ha : a.length = n) : (a ++ b).take n = a := by simp [← ha]
  have drop_of {n k : Nat} {a b : Bytes} (ha : a.length = n) :
      (a ++ b).drop (n + k) = b.drop k := by simp [← ha]
  have h4 (n : UInt32) := order.length_bytesOfU32 n
  have h2 (n : UInt16) := order.length_bytesOfU16 n
  simp only [ofBytes, bytes]
  rw [take_of (h4 _), drop_of (n := 4) (k := 0) (h4 _), drop_of (n := 4) (k := 2) (h4 _),
    drop_of (n := 4) (k := 4) (h4 _), drop_of (n := 4) (k := 8) (h4 _), List.drop_zero,
    take_of (h2 _), drop_of (n := 2) (k := 0) (h2 _), drop_of (n := 2) (k := 2) (h2 _),
    drop_of (n := 2) (k := 6) (h2 _), List.drop_zero, take_of (h2 _),
    drop_of (n := 2) (k := 0) (h2 _), drop_of (n := 2) (k := 4) (h2 _), List.drop_zero,
    take_of (h4 _), drop_of (n := 4) (k := 0) (h4 _), List.drop_zero,
    List.take_of_length_le (Nat.le_of_eq (h4 _))]
  simp

/-- Sixteen bytes are the bytes of the header that they stand for. -/
theorem bytes_ofBytes (order : ByteOrder) {b : Bytes} (h : b.length = size) :
    (ofBytes order b).bytes order = b := by
  have cut (k width : Nat) : (b.drop k).take width ++ b.drop (k + width) = b.drop k := by
    rw [← List.drop_drop, List.take_append_drop]
  have room (k width : Nat) (hw : k + width ≤ size) : ((b.drop k).take width).length = width := by
    rw [List.length_take, List.length_drop, h]
    omega
  have hlast : (b.drop 12).take 4 = b.drop 12 :=
    List.take_of_length_le (by rw [List.length_drop, h]; decide)
  have w4 (k : Nat) (hw : k + 4 ≤ size) := order.bytesOfU32_u32OfBytes (room k 4 hw)
  have w2 (k : Nat) (hw : k + 2 ≤ size) := order.bytesOfU16_u16OfBytes (room k 2 hw)
  have hfirst := w4 0 (by decide)
  rw [List.drop_zero] at hfirst
  simp only [bytes, ofBytes]
  rw [hfirst, w2 4 (by decide), w2 6 (by decide), w4 8 (by decide), w4 12 (by decide), hlast,
    cut 8 4, cut 6 2, cut 4 2, List.take_append_drop]

end Header

end GenericNetlink
