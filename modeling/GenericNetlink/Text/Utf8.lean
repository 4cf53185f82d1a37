import GenericNetlink.Bytes

/-!
Text as UTF-8 bytes.

`decode` reads text or says where the bytes stop being UTF-8: at an unexpected byte, or because
the data ends inside a sequence. The table of lead bytes is that of the Unicode standard
(table 3-7, well-formed byte sequences).
-/

namespace GenericNetlink.Utf8

/-- The UTF-8 bytes of a text. -/
def encode (s : String) : Bytes := s.toByteArray.data.toList

/-- Where and how bytes stop being UTF-8. From `index` on, `size` bytes could begin a sequence and
the next one cannot go on with it, where a byte that begins none is such a run of its own; or the
data ends inside the sequence that begins at `index`. -/
inductive Fault where
  | invalid (size index : Nat)
  | incomplete (index : Nat)
  deriving DecidableEq

/-- The wording of a fault. -/
def Fault.message : Fault → String
  | .invalid size index =>
    "invalid utf-8 sequence of " ++ toString size ++ " bytes from index " ++ toString index
  | .incomplete index => "incomplete utf-8 byte sequence from index " ++ toString index

/-- The range that each byte after a lead byte must lie in, or none for a byte that leads no
sequence. -/
def following (lead : UInt8) : Option (List (UInt8 × UInt8)) :=
  if lead ≤ 0x7F then some []
  else if 0xC2 ≤ lead ∧ lead ≤ 0xDF then some [(0x80, 0xBF)]
  else if lead = 0xE0 then some [(0xA0, 0xBF), (0x80, 0xBF)]
  else if lead = 0xED then some [(0x80, 0x9F), (0x80, 0xBF)]
  else if 0xE1 ≤ lead ∧ lead ≤ 0xEF then some [(0x80, 0xBF), (0x80, 0xBF)]
  else if lead = 0xF0 then some [(0x90, 0xBF), (0x80, 0xBF), (0x80, 0xBF)]
  else if 0xF1 ≤ lead ∧ lead ≤ 0xF3 then some [(0x80, 0xBF), (0x80, 0xBF), (0x80, 0xBF)]
  else if lead = 0xF4 then some [(0x80, 0x8F), (0x80, 0xBF), (0x80, 0xBF)]
  else none

/-- How many of the first bytes lie in their ranges. -/
def accepted : List (UInt8 × UInt8) → Bytes → Nat
  | (low, high) :: ranges, b :: rest =>
    if low ≤ b ∧ b ≤ high then accepted ranges rest + 1 else 0
  | _, _ => 0

/-- The first fault of the bytes, the first of them standing at `index`; bytes without one count
as ending where the next sequence would begin. -/
def fault (index : Nat) : Bytes → Fault
  | [] => .incomplete index
  | lead :: rest =>
    match following lead with
    | none => .invalid 1 index
    | some ranges =>
      let n := accepted ranges rest
      if n = ranges.length then fault (index + 1 + n) (rest.drop n)
      else if rest.drop n = [] then .incomplete index
      else .invalid (n + 1) index
termination_by b => b.length
decreasing_by
  simp only [List.length_drop, List.length_cons]
  omega

/-- The text that the bytes stand for, or their first fault. -/
def decode (b : Bytes) : Except Fault String :=
  match String.fromUTF8? b.toByteArray with
  | some s => .ok s
  | none => .error (fault 0 b)

end GenericNetlink.Utf8
