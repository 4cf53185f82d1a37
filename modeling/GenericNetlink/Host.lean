import GenericNetlink.Align
import GenericNetlink.ByteOrder

/-!
What a program asks of the machine that it runs on: the order of the bytes in its integers, and the
size of its pages.
-/

namespace GenericNetlink

/-- The byte order of a machine that stores 0x1234 as the given bytes. -/
def ByteOrder.detect (stored : Bytes) : ByteOrder :=
  if stored.head? = some 0x34 then .little else .big

/-- A machine is found to have the order in which it stores. -/
theorem ByteOrder.detect_bytesOfU16 (order : ByteOrder) :
    detect (order.bytesOfU16 0x1234) = order := by
  cases order <;> decide

/-- The size of a page of memory: a positive number of whole words. -/
structure PageSize where
  bytes : Nat
  bytes_pos : 0 < bytes
  wordSize_dvd : wordSize ∣ bytes
  deriving DecidableEq

/-- The size that is taken for a page where it cannot be found out. -/
def PageSize.fallback : PageSize := ⟨4096, by decide, by decide⟩

/-- A machine, as far as a program asks: netlink speaks in its byte order, and receive buffers are
made of its pages. -/
structure Host where
  order : ByteOrder
  page : PageSize := .fallback
  deriving DecidableEq

end GenericNetlink
