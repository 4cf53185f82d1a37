import GenericNetlink.Proofs.Attribute.Value
import GenericNetlink.Proofs.Truncation

/-!
Texts as values of attributes, zero characters included.

A text goes into an attribute as its bytes and a zero, and it comes out as far as its first zero
character (`Attribute.text_round_trip`). Cutting the bytes at their first zero is cutting the text
there (`Value.holds_encode`), since no other character has a zero byte.
-/

namespace GenericNetlink

namespace Value

/-- The part of a text in front of its first zero character. -/
def beforeZero (s : String) : String := String.ofList (s.toList.takeWhile (· != '\x00'))

theorem not_mem_beforeZero (s : String) : '\x00' ∉ (beforeZero s).toList := by
  intro h
  rw [beforeZero, String.toList_ofList] at h
  simpa using List.all_eq_true.1 List.all_takeWhile _ h

theorem beforeZero_of_not_mem {s : String} (h : '\x00' ∉ s.toList) : beforeZero s = s := by
  have hall : s.toList.takeWhile (· != '\x00') = s.toList := by
    rw [List.takeWhile_eq_self_iff]
    rintro c hc
    have hne : c ≠ '\x00' := by
      rintro rfl
      exact h hc
    simpa using hne
  rw [beforeZero, hall, String.ofList_toList]

/-- The bytes of a text hold the text as far as its first zero character. -/
theorem holds_encode (s : String) : Holds (Utf8.encode s) (beforeZero s) := by
  have hsplit : s.toList = (beforeZero s).toList ++ s.toList.dropWhile (· != '\x00') := by
    rw [beforeZero, String.toList_ofList, List.takeWhile_append_dropWhile]
  cases hrest : s.toList.dropWhile (· != '\x00') with
  | nil =>
    rw [hrest, List.append_nil] at hsplit
    have hzero : '\x00' ∉ s.toList := hsplit ▸ not_mem_beforeZero s
    rw [beforeZero_of_not_mem hzero]
    exact .whole hzero
  | cons c rest =>
    have hbytes : Utf8.encode s =
        Utf8.encode (beforeZero s) ++ 0 :: rest.flatMap String.utf8EncodeChar := by
      rw [Utf8.encode_eq_flatMap, hsplit, hrest, eq_of_dropWhile_ne hrest, List.flatMap_append,
        List.flatMap_cons, ← Utf8.encode_eq_flatMap]
      rfl
    rw [hbytes]
    exact .ended (not_mem_beforeZero s)

/-- A text takes a zero more than its bytes. -/
theorem length_ofText (s : String) : (ofText s).length = s.utf8ByteSize + 1 := by
  rw [ofText, List.length_append, Utf8.length_encode, List.length_singleton]

/-- The value of a text is read as the text as far as its first zero character. -/
theorem text_ofText_eq (s : String) : text (ofText s) = .ok (beforeZero s) := by
  rw [ofText, text_append_zero]
  exact text_eq_ok_iff.2 (holds_encode s)

end Value

namespace Attribute

variable {order : ByteOrder} {type : UInt16} {s : String} {a : Attribute}

/-- An attribute is made of a text exactly if its bytes leave room for a zero. -/
theorem ofText_eq_ok_iff :
    ofText type s = .ok a ↔ s.utf8ByteSize < maxValueSize ∧ a = small type (Value.ofText s) := by
  have hlength := Value.length_ofText s
  rcases Nat.lt_or_ge s.utf8ByteSize maxValueSize with hlt | hge
  · rw [ofText, make_of_le (by omega), Except.ok.injEq, eq_comm, and_iff_right hlt]
  · rw [ofText, make_of_lt (by omega)]
    exact iff_of_false (by simp) fun h => Nat.not_lt.2 hge h.1

/-- An attribute whose length is right is read back, whatever is behind it and whatever attributes
are in front of it. -/
theorem Sealed.read_back (h : a.Sealed) (rest : Bytes) :
    decode order (a.wire order ++ rest) = .ok a ∧
      ∀ (front : Bytes) (as : List Attribute), front.length % 4 = 0 →
        items order front = as.map .ok →
        items order (front ++ (a.wire order ++ rest)) =
          as.map .ok ++ .ok a :: items order rest := by
  obtain ⟨hdecode, hbehind⟩ := Format.Writer.decode_wire_append (h.writer order) rest
  refine ⟨hdecode, fun front as hmod hfront => ?_⟩
  have hstream := Format.items_append (f := format order) rfl hmod hfront (a.wire order ++ rest)
  have hfirst := Format.items_of_decode hdecode
  rw [hbehind] at hfirst
  exact hstream.trans (congrArg (as.map .ok ++ ·) hfirst)

/-- A text can be put into an attribute exactly if it has no more than 65530 bytes. The attribute is
then written and read back, alone and in a stream, and its value is read as the text as far as the
first zero character, which is all of it if there is none. Whatever the bytes of a value are, a zero
behind them and what follows say nothing. -/
theorem text_round_trip (order : ByteOrder) (type : UInt16) (s : String) :
    ((∃ a, ofText type s = .ok a) ↔ s.utf8ByteSize ≤ 65530) ∧
    (∀ a, ofText type s = .ok a → a.type = type ∧ Value.text a.value = .ok (Value.beforeZero s) ∧
      ∃ wire, a.encode order = .ok (a, wire) ∧ decode order wire = .ok a ∧
        ∀ rest : Bytes, decode order (wire ++ rest) = .ok a ∧
          ∀ (front : Bytes) (as : List Attribute), front.length % 4 = 0 →
            items order front = as.map .ok →
            items order (front ++ (wire ++ rest)) = as.map .ok ++ .ok a :: items order rest) ∧
    ('\x00' ∉ s.toList → Value.beforeZero s = s) ∧
    ∀ b rest : Bytes, Value.text (b ++ 0 :: rest) = Value.text b := by
  refine ⟨⟨?_, ?_⟩, ?_, Value.beforeZero_of_not_mem, Value.text_append_zero⟩
  · rintro ⟨a, ha⟩
    exact Nat.le_of_lt_succ (ofText_eq_ok_iff.1 ha).1
  · intro hle
    exact ⟨_, ofText_eq_ok_iff.2 ⟨Nat.lt_succ_of_le hle, rfl⟩⟩
  · intro a ha
    obtain ⟨hlt, rfl⟩ := ofText_eq_ok_iff.1 ha
    have hsealed : (small type (Value.ofText s)).Sealed :=
      sealed_small (by rw [Value.length_ofText]; exact hlt)
    have halone : decode order ((small type (Value.ofText s)).wire order ++ []) = _ :=
      (hsealed.read_back []).1
    rw [List.append_nil] at halone
    exact ⟨rfl, Value.text_ofText_eq s, _, encode_of_sealed hsealed, halone, hsealed.read_back⟩

example : (ofText 2 "é\x00b").map (fun a => (a.value, Value.text a.value)) =
    .ok ([195, 169, 0, 98, 0], .ok "é") := by cbv

end Attribute

end GenericNetlink
