import GenericNetlink.Attribute.Basic
import GenericNetlink.Format

/-!
Reading attributes, one or a stream of them, and the trees that nested attributes form.
-/

namespace GenericNetlink

namespace Attribute

/-- The length field of a header. -/
def lengthField (order : ByteOrder) (header : Bytes) : UInt16 := order.u16OfBytes (header.take 2)

/-- The type field of a header. -/
def typeField (order : ByteOrder) (header : Bytes) : UInt16 :=
  order.u16OfBytes ((header.drop 2).take 2)

@[simp] theorem lengthField_header (order : ByteOrder) (a : Attribute) :
    lengthField order (a.header order) = a.length := by
  rw [lengthField, header, List.take_left' (order.length_bytesOfU16 _),
    ByteOrder.u16OfBytes_bytesOfU16]

@[simp] theorem typeField_header (order : ByteOrder) (a : Attribute) :
    typeField order (a.header order) = a.type := by
  rw [typeField, header, List.drop_left' (order.length_bytesOfU16 _),
    List.take_of_length_le (Nat.le_of_eq (order.length_bytesOfU16 _)),
    ByteOrder.u16OfBytes_bytesOfU16]

/-- The format of attributes. -/
def format (order : ByteOrder) : Format Attribute where
  headerSize := headerSize
  headerSize_pos := by decide
  declared header := (lengthField order header).toNat
  build header value :=
    { length := lengthField order header, type := typeField order header, value }
  shortHeader size := .invalidAttribute (.shortHeader size)
  badLength declared size := .invalidAttribute (.badLength declared size)

/-- The attribute at the front of a buffer. -/
def decode (order : ByteOrder) (data : Bytes) : Except Error Attribute :=
  (format order).decode data

/-- The attributes of a buffer, and the fault that stops them. -/
def items (order : ByteOrder) (data : Bytes) : List (Except Error Attribute) :=
  (format order).items data

/-- The attributes of a buffer, or the fault that stops them. -/
def decodeAll (order : ByteOrder) (data : Bytes) : Except Error (List Attribute) :=
  (format order).collect data

/-- The attributes inside the value, whatever the type says. -/
def nested (order : ByteOrder) (a : Attribute) : List (Except Error Attribute) :=
  items order a.value

end Attribute

/-- What a stream of attributes holds at some place, opened to some depth: the fault that it ends
in, an attribute that was not opened, or one with what its value holds. -/
inductive AttributeTree where
  | fault (error : Error)
  | leaf (a : Attribute)
  | node (a : Attribute) (children : List AttributeTree)

namespace AttributeTree

/-- The trees of a stream: every attribute that satisfies `opens` is opened, down to the given
depth. -/
def expand (order : ByteOrder) (opens : Attribute → Bool) : Nat → Bytes → List AttributeTree
  | 0, data =>
    (Attribute.items order data).map fun
      | .error e => fault e
      | .ok a => leaf a
  | depth + 1, data =>
    (Attribute.items order data).map fun
      | .error e => fault e
      | .ok a => if opens a then node a (expand order opens depth a.value) else leaf a

end AttributeTree

end GenericNetlink
