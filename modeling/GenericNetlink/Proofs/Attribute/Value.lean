import GenericNetlink.Attribute.Value
import Mathlib.Data.List.TakeWhile

/-!
The typed readings of values that were written.

An integer is read back (`Value.u16_bytesOfU16`, `Value.u32_bytesOfU32`). A text is read back up to
its first zero, and so as a whole if it has none (`Value.text_ofText`): of all characters only the
zero character has a zero byte (`Utf8.zero_mem_encode_iff`).
-/

namespace GenericNetlink

namespace Utf8

/-- The bytes of a text are those of its characters. -/
theorem encode_eq_flatMap (s : String) : encode s = s.toList.flatMap String.utf8EncodeChar := by
  have hbytes : s.toByteArray = (s.toList.flatMap String.utf8EncodeChar).toByteArray :=
    String.utf8Encode_toList.symm
  rw [encode, hbytes, List.toList_data_toByteArray]

/-- Of all characters only the zero character has a zero byte. -/
theorem zero_mem_utf8EncodeChar_iff (c : Char) : 0 ∈ String.utf8EncodeChar c ↔ c = '\x00' := by
  have hzero (n : Nat) : (0 : UInt8) = UInt8.ofNat n ↔ n % 256 = 0 := by
    rw [← UInt8.toNat_inj, UInt8.toNat_ofNat', eq_comm]
    rfl
  have hchar : c = '\x00' ↔ c.val.toNat = 0 := by
    rw [← Char.val_inj, ← UInt32.toNat_inj]
    rfl
  rw [hchar, String.utf8EncodeChar]
  split
  · simp only [List.mem_singleton, hzero]
    omega
  · -- the bytes of every other length carry marks
    have hnonzero : ¬ c.val.toNat = 0 := by omega
    refine iff_of_false ?_ hnonzero
    split
    · simp only [List.mem_cons, List.not_mem_nil, or_false, hzero]
      omega
    · split
      · simp only [List.mem_cons, List.not_mem_nil, or_false, hzero]
        omega
      · simp only [List.mem_cons, List.not_mem_nil, or_false, hzero]
        omega

theorem zero_mem_encode_iff (s : String) : 0 ∈ encode s ↔ '\x00' ∈ s.toList := by
  rw [encode_eq_flatMap, List.mem_flatMap]
  constructor
  · rintro ⟨c, hc, hzero⟩
    obtain rfl := (zero_mem_utf8EncodeChar_iff c).1 hzero
    exact hc
  · intro h
    exact ⟨_, h, (zero_mem_utf8EncodeChar_iff _).2 rfl⟩

@[simp] theorem length_encode (s : String) : (encode s).length = s.utf8ByteSize := rfl

/-- The bytes of a text are read as the text. -/
theorem decode_encode (s : String) : decode (encode s) = .ok s := by
  have hbytes : (encode s).toByteArray = s.toByteArray :=
    ByteArray.ext (Array.toList_inj.1 List.toList_data_toByteArray)
  have hread : String.fromUTF8? s.toByteArray = some s := by
    rw [String.fromUTF8?, dif_pos s.isValidUTF8]
    rfl
  rw [decode, hbytes, hread]

/-- Exactly the bytes of a text are read as that text. -/
theorem decode_eq_ok_iff {b : Bytes} {s : String} : decode b = .ok s ↔ b = encode s := by
  constructor
  · intro h
    rw [decode] at h
    split at h
    · next t hread =>
      obtain rfl := Except.ok.inj h
      unfold String.fromUTF8? at hread
      split at hread
      · next hvalid =>
        obtain rfl := Option.some.inj hread
        exact List.toList_data_toByteArray.symm
      · exact absurd hread (by simp)
    · exact absurd h (by simp)
  · rintro rfl
    exact decode_encode s

end Utf8

namespace Value

/-- What is behind a zero has no part in the text of a value. -/
theorem textBytes_append_zero (b rest : Bytes) : textBytes (b ++ 0 :: rest) = textBytes b := by
  induction b with
  | nil => rfl
  | cons x b ih =>
    simp only [textBytes, List.cons_append, List.takeWhile_cons] at ih ⊢
    rw [ih]

theorem text_append_zero (b rest : Bytes) : text (b ++ 0 :: rest) = text b := by
  rw [text, textBytes_append_zero, text]

/-- The bytes of a text without a zero character are read as the text. -/
theorem text_encode {s : String} (h : '\x00' ∉ s.toList) : text (Utf8.encode s) = .ok s := by
  have hbytes : textBytes (Utf8.encode s) = Utf8.encode s := by
    rw [textBytes, List.takeWhile_eq_self_iff]
    rintro b hb
    have hne : b ≠ 0 := by
      rintro rfl
      exact h ((Utf8.zero_mem_encode_iff s).1 hb)
    simpa using hne
  rw [text, hbytes, Utf8.decode_encode]
  rfl

/-- So are they in front of a zero, whatever is behind it. -/
theorem text_encode_append {s : String} (h : '\x00' ∉ s.toList) (rest : Bytes) :
    text (Utf8.encode s ++ 0 :: rest) = .ok s := by
  rw [text_append_zero, text_encode h]

theorem text_ofText {s : String} (h : '\x00' ∉ s.toList) : text (ofText s) = .ok s :=
  text_encode_append h []

/-- Dropping elements as long as they are no mark stops at a mark. -/
theorem eq_of_dropWhile_ne {α : Type} [DecidableEq α] {l rest : List α} {x mark : α}
    (h : l.dropWhile (· != mark) = x :: rest) : x = mark := by
  have hhead := List.head?_dropWhile_not (· != mark) l
  rw [h] at hhead
  simpa using hhead

/-- The text that a value holds: the whole value, if it has no zero, or else what is before the
first one, whatever is behind. -/
inductive Holds : Bytes → String → Prop
  | whole {s : String} : '\x00' ∉ s.toList → Holds (Utf8.encode s) s
  | ended {s : String} {rest : Bytes} : '\x00' ∉ s.toList → Holds (Utf8.encode s ++ 0 :: rest) s

/-- A value is read as the text that it holds, and cannot be read if it holds none. -/
theorem text_eq_ok_iff {b : Bytes} {s : String} : text b = .ok s ↔ Holds b s := by
  constructor
  · intro h
    have hdecode : Utf8.decode (textBytes b) = .ok s := by
      rw [text] at h
      cases hd : Utf8.decode (textBytes b) with
      | ok t =>
        rw [hd] at h
        exact congrArg Except.ok (Except.ok.inj h)
      | error e =>
        rw [hd] at h
        cases h
    have hbytes : textBytes b = Utf8.encode s := Utf8.decode_eq_ok_iff.1 hdecode
    have hzero : '\x00' ∉ s.toList := by
      rw [← Utf8.zero_mem_encode_iff, ← hbytes]
      intro hmem
      simpa using List.all_eq_true.1 List.all_takeWhile _ hmem
    have hsplit : b = Utf8.encode s ++ b.dropWhile (· != 0) := by
      rw [← hbytes, textBytes, List.takeWhile_append_dropWhile]
    cases hrest : b.dropWhile (· != 0) with
    | nil =>
      rw [hsplit, hrest, List.append_nil]
      exact .whole hzero
    | cons x rest =>
      -- the text ends at the first byte that is no part of it, which so is zero
      rw [hsplit, hrest, eq_of_dropWhile_ne hrest]
      exact .ended hzero
  · intro h
    cases h with
    | whole hzero => exact text_encode hzero
    | ended hzero => exact text_encode_append hzero _

/-- An integer is read back, whatever is behind it. -/
theorem chunk_append (scalar : Scalar) {b : Bytes} (h : b.length = scalar.width) (rest : Bytes) :
    chunk scalar (b ++ rest) = .ok b := by
  rw [chunk, if_pos, List.take_left' h]
  rw [Bytes.hasAtLeast_iff, List.length_append]
  omega

theorem u16_bytesOfU16 (order : ByteOrder) (n : UInt16) : u16 order (order.bytesOfU16 n) = .ok n := by
  have hchunk := chunk_append .u16 (order.length_bytesOfU16 n) []
  rw [List.append_nil] at hchunk
  rw [u16, hchunk]
  exact congrArg _ (order.u16OfBytes_bytesOfU16 n)

theorem u32_bytesOfU32 (order : ByteOrder) (n : UInt32) : u32 order (order.bytesOfU32 n) = .ok n := by
  have hchunk := chunk_append .u32 (order.length_bytesOfU32 n) []
  rw [List.append_nil] at hchunk
  rw [u32, hchunk]
  exact congrArg _ (order.u32OfBytes_bytesOfU32 n)

end Value

end GenericNetlink
