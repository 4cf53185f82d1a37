import Mathlib.Algebra.Group.Nat.Defs
import GenericNetlink.Align

/-!
What the mask of `alignUp` computes.

`toNat_alignUp` says it with a quotient, and `toNat_alignUp_four` that at the four-byte boundary
it is `wordAlign`.
-/

namespace GenericNetlink

/-- Clearing the low `k` bits of a word rounds it down to a multiple of `2 ^ k`. -/
theorem toNat_and_not_mask (x m : UInt64) (k : Nat) (hm : m.toNat = 2 ^ k - 1) :
    (x &&& ~~~m).toNat = x.toNat / 2 ^ k * 2 ^ k := by
  have hx : x.toNat < 2 ^ 64 := x.toNat_lt
  rw [UInt64.toNat_and, UInt64.toNat_not, ← Nat.shiftRight_eq_div_pow, ← Nat.shiftLeft_eq]
  refine Nat.eq_of_testBit_eq fun i => ?_
  have hlow : UInt64.size - 1 - m.toNat = 2 ^ 64 - (m.toNat + 1) := by
    simp only [UInt64.size]; omega
  rw [Nat.testBit_and, hlow, Nat.testBit_two_pow_sub_succ m.toNat_lt, hm,
    Nat.testBit_two_pow_sub_one, Nat.testBit_shiftLeft, Nat.testBit_shiftRight]
  by_cases hk : k ≤ i
  · have hlt : ¬ i < k := by omega
    rw [Nat.add_sub_cancel' hk]
    by_cases hi : i < 64
    · simp [hk, hlt, hi]
    · have : x.toNat.testBit i = false :=
        Nat.testBit_lt_two_pow (Nat.lt_of_lt_of_le hx (Nat.pow_le_pow_right (by omega) (by omega)))
      simp [this]
  · have hlt : i < k := by omega
    simp [hk, hlt]

/-- As long as the addition does not overflow, `alignUp` rounds up to a multiple of a power of
two. -/
theorem toNat_alignUp (n boundary : UInt64) (k : Nat) (hb : boundary.toNat = 2 ^ k)
    (h : n.toNat + boundary.toNat - 1 < 2 ^ 64) :
    (alignUp n boundary).toNat = (n.toNat + (2 ^ k - 1)) / 2 ^ k * 2 ^ k := by
  have hpos : 0 < 2 ^ k := Nat.two_pow_pos k
  have hone : (1 : UInt64).toNat = 1 := rfl
  have hmask : (boundary - 1).toNat = 2 ^ k - 1 := by
    rw [UInt64.toNat_sub_of_le _ _ (by rw [UInt64.le_iff_toNat_le, hone]; omega), hone, hb]
  have hsum : (n + boundary - 1).toNat = n.toNat + (2 ^ k - 1) := by
    rw [show n + boundary - 1 = n + (boundary - 1) by
      rw [UInt64.sub_eq_add_neg, UInt64.add_assoc, ← UInt64.sub_eq_add_neg],
      UInt64.toNat_add, hmask, Nat.mod_eq_of_lt (by omega)]
  rw [alignUp, toNat_and_not_mask _ _ k hmask, hsum]

/-- For the four-byte boundary the mask computes `wordAlign`. -/
theorem toNat_alignUp_four (n : UInt64) (h : n.toNat + 3 < 2 ^ 64) :
    (alignUp n 4).toNat = wordAlign n.toNat := by
  rw [toNat_alignUp n 4 2 rfl (by simpa using h)]
  rfl

end GenericNetlink
