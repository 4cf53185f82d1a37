import GenericNetlink.Bytes

/-!
Rounding lengths up to a boundary.

Every message and every attribute starts on a four-byte boundary. `alignUp` rounds a machine word
to any power of two with an addition and a mask; `wordAlign` is the four-byte case on plain
numbers, which the codecs use.
-/

namespace GenericNetlink

/-- The boundary that messages and attributes start on. -/
def wordSize : Nat := 4

/-- The next multiple of `boundary`, a power of two, that is not below `n`. -/
def alignUp (n boundary : UInt64) : UInt64 :=
  (n + boundary - 1) &&& ~~~(boundary - 1)

/-- The next multiple of four that is not below `n`. -/
def wordAlign (n : Nat) : Nat :=
  (n + 3) / 4 * 4

theorem le_wordAlign (n : Nat) : n ≤ wordAlign n := by unfold wordAlign; omega

theorem wordAlign_lt (n : Nat) : wordAlign n < n + 4 := by unfold wordAlign; omega

theorem wordAlign_mod (n : Nat) : wordAlign n % 4 = 0 := by unfold wordAlign; omega

theorem wordAlign_of_mod {n : Nat} (h : n % 4 = 0) : wordAlign n = n := by
  unfold wordAlign; omega

namespace Bytes

/-- The bytes, filled up with zeros to a four-byte boundary. -/
def padded (b : Bytes) : Bytes :=
  b ++ zeros (wordAlign b.length - b.length)

@[simp] theorem length_padded (b : Bytes) : b.padded.length = wordAlign b.length := by
  have := le_wordAlign b.length
  simp only [padded, List.length_append, length_zeros]
  omega

theorem padded_of_mod {b : Bytes} (h : b.length % 4 = 0) : b.padded = b := by
  simp [padded, wordAlign_of_mod h, zeros]

end Bytes

end GenericNetlink
