import GenericNetlink.ByteOrder
import GenericNetlink.Error

/-!
The typed readings of an attribute's value.

An integer is read from the first bytes of the value and ignores the rest; a text ends before the
first zero byte, or with the value if there is none.
-/

namespace GenericNetlink.Value

/-- The first bytes of a value, as many as the integer takes. -/
def chunk (scalar : Scalar) (b : Bytes) : Except Error Bytes :=
  if b.hasAtLeast scalar.width then .ok (b.take scalar.width)
  else .error (.invalidAttribute (.truncated scalar))

/-- The value as a byte. -/
def u8 : Bytes → Except Error UInt8
  | [] => .error (.invalidAttribute .empty)
  | b :: _ => .ok b

/-- The value as a 16-bit integer. -/
def u16 (order : ByteOrder) (b : Bytes) : Except Error UInt16 :=
  (chunk .u16 b).map order.u16OfBytes

/-- The value as a 32-bit integer. -/
def u32 (order : ByteOrder) (b : Bytes) : Except Error UInt32 :=
  (chunk .u32 b).map order.u32OfBytes

/-- The value as a signed 32-bit integer. -/
def i32 (order : ByteOrder) (b : Bytes) : Except Error Int32 :=
  (chunk .i32 b).map order.i32OfBytes

/-- The value as a 64-bit integer. -/
def u64 (order : ByteOrder) (b : Bytes) : Except Error UInt64 :=
  (chunk .u64 b).map order.u64OfBytes

/-- The bytes of the text in a value: those before the first zero. -/
def textBytes (b : Bytes) : Bytes := b.takeWhile (· != 0)

/-- The value as text. -/
def text (b : Bytes) : Except Error String :=
  (Utf8.decode (textBytes b)).mapError (.invalidAttribute ∘ .notText)

/-- The value of a text: its bytes and a zero. -/
def ofText (s : String) : Bytes := Utf8.encode s ++ [0]

end GenericNetlink.Value
