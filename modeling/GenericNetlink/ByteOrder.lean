import GenericNetlink.Bytes

/-!
Integers on the wire, in either byte order.

`ByteOrder.write` and `ByteOrder.read` are inverse to each other at every width (`read_write`,
`write_read`), and the fixed-width integers are those two at two, four and eight bytes.
-/

namespace GenericNetlink

/-- Which byte of an integer comes first on the wire: the least or the most significant one. -/
inductive ByteOrder where
  | little
  | big
  deriving DecidableEq, Inhabited

namespace ByteOrder

/-- The `width` low bytes of a number, least significant first. -/
def digits : Nat → Nat → Bytes
  | 0, _ => []
  | width + 1, n => UInt8.ofNat n :: digits width (n / 256)

/-- The number with the given bytes, least significant first. -/
def ofDigits : Bytes → Nat
  | [] => 0
  | b :: rest => b.toNat + 256 * ofDigits rest

/-- How many numbers a number of bytes can tell apart. -/
def capacity : Nat → Nat
  | 0 => 1
  | width + 1 => 256 * capacity width

@[simp] theorem length_digits (width n : Nat) : (digits width n).length = width := by
  induction width generalizing n with
  | zero => rfl
  | succ width ih => simp [digits, ih]

theorem ofDigits_lt (b : Bytes) : ofDigits b < capacity b.length := by
  induction b with
  | nil => exact Nat.one_pos
  | cons x rest ih =>
    have := x.toNat_lt
    simp only [ofDigits, List.length_cons, capacity]
    omega

theorem ofDigits_digits {width n : Nat} (h : n < capacity width) :
    ofDigits (digits width n) = n := by
  induction width generalizing n with
  | zero =>
    exact (Nat.lt_one_iff.1 h).symm
  | succ width ih =>
    simp only [digits, ofDigits, UInt8.toNat_ofNat']
    rw [ih (Nat.div_lt_of_lt_mul h)]
    omega

theorem digits_ofDigits (b : Bytes) : digits b.length (ofDigits b) = b := by
  induction b with
  | nil => rfl
  | cons x rest ih =>
    have := x.toNat_lt
    have hdiv : (x.toNat + 256 * ofDigits rest) / 256 = ofDigits rest := by omega
    have hlow : UInt8.ofNat (x.toNat + 256 * ofDigits rest) = x := by
      apply UInt8.toNat_inj.1
      simp only [UInt8.toNat_ofNat']
      omega
    simp only [List.length_cons, digits, ofDigits, hdiv, ih, hlow]

/-- The `width` low bytes of a number as they stand on the wire. -/
def write : ByteOrder → Nat → Nat → Bytes
  | .little, width, n => digits width n
  | .big, width, n => (digits width n).reverse

/-- The number that the bytes stand for. -/
def read : ByteOrder → Bytes → Nat
  | .little, b => ofDigits b
  | .big, b => ofDigits b.reverse

@[simp] theorem length_write (order : ByteOrder) (width n : Nat) :
    (order.write width n).length = width := by
  cases order <;> simp [write]

theorem read_lt (order : ByteOrder) (b : Bytes) : order.read b < capacity b.length := by
  cases order
  · exact ofDigits_lt b
  · simpa [read] using ofDigits_lt b.reverse

theorem read_write (order : ByteOrder) {width n : Nat} (h : n < capacity width) :
    order.read (order.write width n) = n := by
  cases order <;> simp [read, write, ofDigits_digits h]

theorem write_read (order : ByteOrder) (b : Bytes) :
    order.write b.length (order.read b) = b := by
  cases order
  · exact digits_ofDigits b
  · have := digits_ofDigits b.reverse
    rw [List.length_reverse] at this
    simp [read, write, this]

/-! ### Fixed widths -/

/-- The bytes of a 16-bit integer. -/
def bytesOfU16 (order : ByteOrder) (n : UInt16) : Bytes := order.write 2 n.toNat

/-- The bytes of a 32-bit integer. -/
def bytesOfU32 (order : ByteOrder) (n : UInt32) : Bytes := order.write 4 n.toNat

/-- The bytes of a signed 32-bit integer, in two's complement. -/
def bytesOfI32 (order : ByteOrder) (n : Int32) : Bytes := order.bytesOfU32 n.toUInt32

/-- The bytes of a 64-bit integer. -/
def bytesOfU64 (order : ByteOrder) (n : UInt64) : Bytes := order.write 8 n.toNat

/-- The 16-bit integer of two bytes. -/
def u16OfBytes (order : ByteOrder) (b : Bytes) : UInt16 := UInt16.ofNat (order.read b)

/-- The 32-bit integer of four bytes. -/
def u32OfBytes (order : ByteOrder) (b : Bytes) : UInt32 := UInt32.ofNat (order.read b)

/-- The signed 32-bit integer of four bytes, in two's complement. -/
def i32OfBytes (order : ByteOrder) (b : Bytes) : Int32 := (order.u32OfBytes b).toInt32

/-- The 64-bit integer of eight bytes. -/
def u64OfBytes (order : ByteOrder) (b : Bytes) : UInt64 := UInt64.ofNat (order.read b)

@[simp] theorem length_bytesOfU16 (order : ByteOrder) (n : UInt16) :
    (order.bytesOfU16 n).length = 2 := length_write ..

@[simp] theorem length_bytesOfU32 (order : ByteOrder) (n : UInt32) :
    (order.bytesOfU32 n).length = 4 := length_write ..

@[simp] theorem length_bytesOfI32 (order : ByteOrder) (n : Int32) :
    (order.bytesOfI32 n).length = 4 := length_write ..

@[simp] theorem length_bytesOfU64 (order : ByteOrder) (n : UInt64) :
    (order.bytesOfU64 n).length = 8 := length_write ..

@[simp] theorem u16OfBytes_bytesOfU16 (order : ByteOrder) (n : UInt16) :
    order.u16OfBytes (order.bytesOfU16 n) = n := by
  rw [u16OfBytes, bytesOfU16, read_write order n.toNat_lt, UInt16.ofNat_toNat]

@[simp] theorem u32OfBytes_bytesOfU32 (order : ByteOrder) (n : UInt32) :
    order.u32OfBytes (order.bytesOfU32 n) = n := by
  rw [u32OfBytes, bytesOfU32, read_write order n.toNat_lt, UInt32.ofNat_toNat]

@[simp] theorem i32OfBytes_bytesOfI32 (order : ByteOrder) (n : Int32) :
    order.i32OfBytes (order.bytesOfI32 n) = n := by
  rw [i32OfBytes, bytesOfI32, u32OfBytes_bytesOfU32, Int32.toInt32_toUInt32]

@[simp] theorem u64OfBytes_bytesOfU64 (order : ByteOrder) (n : UInt64) :
    order.u64OfBytes (order.bytesOfU64 n) = n := by
  rw [u64OfBytes, bytesOfU64, read_write order n.toNat_lt, UInt64.ofNat_toNat]

theorem bytesOfU16_u16OfBytes (order : ByteOrder) {b : Bytes} (h : b.length = 2) :
    order.bytesOfU16 (order.u16OfBytes b) = b := by
  have hlt : order.read b < capacity 2 := h ▸ order.read_lt b
  rw [bytesOfU16, u16OfBytes, UInt16.toNat_ofNat', Nat.mod_eq_of_lt (by exact hlt), ← h, write_read]

theorem bytesOfU32_u32OfBytes (order : ByteOrder) {b : Bytes} (h : b.length = 4) :
    order.bytesOfU32 (order.u32OfBytes b) = b := by
  have hlt : order.read b < capacity 4 := h ▸ order.read_lt b
  rw [bytesOfU32, u32OfBytes, UInt32.toNat_ofNat', Nat.mod_eq_of_lt (by exact hlt), ← h, write_read]

end ByteOrder

end GenericNetlink
