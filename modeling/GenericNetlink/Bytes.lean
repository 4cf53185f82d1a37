/-!
Byte strings, as the codecs read and write them.

`Bytes.hasAtLeast n b` looks at no more than `n` bytes, so that a reader of a long stream does
not count the whole rest of it for every record; `hasAtLeast_iff` says that it is the test
`n ≤ b.length`.
-/

namespace GenericNetlink

/-- A byte string. -/
abbrev Bytes := List UInt8

namespace Bytes

/-- Whether there are at least `n` bytes. -/
def hasAtLeast : Nat → Bytes → Bool
  | 0, _ => true
  | _ + 1, [] => false
  | n + 1, _ :: rest => hasAtLeast n rest

@[simp] theorem hasAtLeast_iff {n : Nat} {b : Bytes} : hasAtLeast n b = true ↔ n ≤ b.length := by
  induction n generalizing b with
  | zero => simp [hasAtLeast]
  | succ n ih =>
    cases b with
    | nil => simp [hasAtLeast]
    | cons x rest => simp [hasAtLeast, ih]

@[simp] theorem hasAtLeast_eq_false_iff {n : Nat} {b : Bytes} :
    hasAtLeast n b = false ↔ b.length < n := by
  rw [← Bool.not_eq_true, hasAtLeast_iff, Nat.not_le]

/-- A run of zero bytes. -/
def zeros (n : Nat) : Bytes := List.replicate n 0

@[simp] theorem length_zeros (n : Nat) : (zeros n).length = n := List.length_replicate

end Bytes

end GenericNetlink
