import GenericNetlink.Align
import GenericNetlink.Attribute.Value

/-!
Attributes and how they are written.

An attribute is a four-byte header, a length and a type of 16 bits each, and a value. The length
counts header and value but not the padding behind them. It is set anew whenever the attribute is
written, so writing fails exactly for a value that the length cannot count.
-/

namespace GenericNetlink

/-- A type with its two flag bits, a value, and the length field it was last read or written with.
-/
structure Attribute where
  length : UInt16 := 0
  type : UInt16 := 0
  value : Bytes := []
  deriving DecidableEq, Inhabited

namespace Attribute

/-- The size of the header. -/
def headerSize : Nat := 4

/-- The type bit of a value that is itself a stream of attributes. -/
def nestedFlag : UInt16 := 0x8000

/-- The type bit of a value in network byte order. -/
def netByteOrderFlag : UInt16 := 0x4000

/-- The bits of a type that are no flags. -/
def typeMask : UInt16 := ~~~(nestedFlag ||| netByteOrderFlag)

/-- The size of the largest value. -/
def maxValueSize : Nat := 65535 - headerSize

/-- The type without its flags. -/
def kind (a : Attribute) : UInt16 := a.type &&& typeMask

/-- Whether the type says that the value is a stream of attributes. -/
def isNested (a : Attribute) : Bool := a.type &&& nestedFlag != 0

/-- The room that the attribute takes on the wire, padding included. -/
def wireSize (a : Attribute) : Nat := wordAlign (headerSize + a.value.length)

/-- The attribute with its length set to what its value needs. -/
def sealed (a : Attribute) : Except Error Attribute :=
  if a.value.length ≤ maxValueSize then
    .ok { a with length := UInt16.ofNat (headerSize + a.value.length) }
  else .error (.invalidAttribute (.tooLarge a.value.length))

/-- The header, with the length as it is. -/
def header (order : ByteOrder) (a : Attribute) : Bytes :=
  order.bytesOfU16 a.length ++ order.bytesOfU16 a.type

/-- Header, value and padding, with the length as it is. -/
def wire (order : ByteOrder) (a : Attribute) : Bytes :=
  (a.header order ++ a.value).padded

/-- Writes the attribute: with its length set, and the bytes that it then has. -/
def encode (order : ByteOrder) (a : Attribute) : Except Error (Attribute × Bytes) :=
  a.sealed.map fun a => (a, a.wire order)

/-- Writes attributes back to back. Each one is written in place, so those in front of the first
that fails have their lengths set, and it and those behind it are as they were. -/
def encodeAll (order : ByteOrder) : List Attribute → List Attribute × Except Error Bytes
  | [] => ([], .ok [])
  | a :: rest =>
    match a.encode order with
    | .error e => (a :: rest, .error e)
    | .ok (a, bytes) =>
      let (rest, wire) := encodeAll order rest
      (a :: rest, wire.map (bytes ++ ·))

/-! ### Making attributes -/

/-- An attribute with the given value, if its length can count it. -/
def make (type : UInt16) (value : Bytes) : Except Error Attribute :=
  sealed { type, value }

/-- An attribute with a value known to be small. -/
def small (type : UInt16) (value : Bytes) : Attribute :=
  { length := UInt16.ofNat (headerSize + value.length), type, value }

/-- An attribute without a value. -/
def flag (type : UInt16) : Attribute := small type []

/-- An attribute that holds a byte. -/
def ofU8 (type : UInt16) (n : UInt8) : Attribute := small type [n]

/-- An attribute that holds a 16-bit integer. -/
def ofU16 (order : ByteOrder) (type n : UInt16) : Attribute := small type (order.bytesOfU16 n)

/-- An attribute that holds a 32-bit integer. -/
def ofU32 (order : ByteOrder) (type : UInt16) (n : UInt32) : Attribute :=
  small type (order.bytesOfU32 n)

/-- An attribute that holds a signed 32-bit integer. -/
def ofI32 (order : ByteOrder) (type : UInt16) (n : Int32) : Attribute :=
  small type (order.bytesOfI32 n)

/-- An attribute that holds a 64-bit integer. -/
def ofU64 (order : ByteOrder) (type : UInt16) (n : UInt64) : Attribute :=
  small type (order.bytesOfU64 n)

/-- An attribute that holds a text, ended by a zero. -/
def ofText (type : UInt16) (s : String) : Except Error Attribute :=
  make type (Value.ofText s)

/-- An attribute that holds other attributes, back to back. -/
def nest (order : ByteOrder) (type : UInt16) (children : List Attribute) :
    Except Error Attribute := do
  make (type ||| nestedFlag) (← (encodeAll order children).2)

/-! ### Laws -/

/-- Writing succeeds exactly when the length can count the value. -/
theorem sealed_eq_ok_iff {a b : Attribute} :
    a.sealed = .ok b ↔ a.value.length ≤ maxValueSize ∧
      b = { a with length := UInt16.ofNat (headerSize + a.value.length) } := by
  by_cases h : a.value.length ≤ maxValueSize
  · simp [sealed, h, eq_comm]
  · simp [sealed, h]

@[simp] theorem length_header (order : ByteOrder) (a : Attribute) :
    (a.header order).length = headerSize := by
  simp [header, headerSize]

@[simp] theorem length_wire (order : ByteOrder) (a : Attribute) :
    (a.wire order).length = a.wireSize := by
  simp [wire, wireSize]

end Attribute

end GenericNetlink
