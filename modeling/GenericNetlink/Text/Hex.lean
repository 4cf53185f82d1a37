import GenericNetlink.Bytes

/-!
Bytes written as pairs of hexadecimal digits.
-/

namespace GenericNetlink.Hex

/-- The value of a digit. -/
def value? (c : Char) : Option Nat :=
  if '0' ≤ c ∧ c ≤ '9' then some (c.toNat - '0'.toNat)
  else if 'a' ≤ c ∧ c ≤ 'f' then some (c.toNat - 'a'.toNat + 10)
  else if 'A' ≤ c ∧ c ≤ 'F' then some (c.toNat - 'A'.toNat + 10)
  else none

/-- The digit of a value. -/
def digit (n : Nat) : Char :=
  if n < 10 then Char.ofNat ('0'.toNat + n) else Char.ofNat ('a'.toNat + (n - 10))

/-- The bytes of pairs of digits, behind those already read, which are given last one first. -/
def decodeOnto (read : Bytes) : List Char → Option Bytes
  | [] => some read.reverse
  | [_] => none
  | high :: low :: rest =>
    match value? high, value? low with
    | some h, some l => decodeOnto (UInt8.ofNat (16 * h + l) :: read) rest
    | _, _ => none

/-- The bytes that pairs of digits stand for. -/
def decode? (s : String) : Option Bytes := decodeOnto [] s.toList

/-- The pairs of digits that stand for bytes, in lower case. -/
def encode (b : Bytes) : String :=
  String.ofList (b.flatMap fun x => [digit (x.toNat / 16), digit (x.toNat % 16)])

end GenericNetlink.Hex
