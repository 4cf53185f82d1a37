import GenericNetlink.Proofs.Attribute.Canonical

/-!
What writing attributes does to them, and which bytes come of it.

The loop that writes attributes sets the length of one after the other (`encodeAll_append`). If all
values fit, it gets to the end, with bytes that do not depend on the lengths there were (`image`);
otherwise it stops at the first value that is too large and leaves that attribute and all behind it
alone (`encodeAll_exact`).
-/

namespace GenericNetlink

namespace Attribute

/-- What an attribute says, whatever its length field is. -/
def content (a : Attribute) : UInt16 × Bytes := (a.type, a.value)

/-- The attribute with the size of header and value as its length. -/
def withLength (a : Attribute) : Attribute := small a.type a.value

/-- The bytes that an attribute stands for: the size of header and value, the type, the value, and
zeros up to a word boundary. -/
def image (order : ByteOrder) (a : Attribute) : Bytes :=
  order.write 2 (headerSize + a.value.length) ++ order.bytesOfU16 a.type ++ a.value ++
    Bytes.zeros ((4 - a.value.length % 4) % 4)

variable {order : ByteOrder} {a : Attribute} {as before : List Attribute}

@[simp] theorem content_withLength (a : Attribute) : a.withLength.content = a.content := rfl

theorem sealed_withLength (h : a.value.length ≤ maxValueSize) : a.withLength.Sealed :=
  sealed_small h

/-- An attribute whose length is set is written as what it stands for. -/
theorem wire_withLength (order : ByteOrder) (h : a.value.length ≤ maxValueSize) :
    a.withLength.wire order = a.image order := by
  have hlength : a.withLength.length.toNat = headerSize + a.value.length := sealed_withLength h
  have hgap : wordAlign (headerSize + a.value.length) - (headerSize + a.value.length) =
      (4 - a.value.length % 4) % 4 := by
    simp only [wordAlign, headerSize]
    omega
  rw [wire, Bytes.padded, List.length_append, length_header, header, ByteOrder.bytesOfU16, hlength,
    image]
  exact congrArg _ (congrArg Bytes.zeros hgap)

/-- Attributes whose lengths are set say the same as before, and their lengths are right. -/
theorem map_withLength (h : ∀ a ∈ as, a.value.length ≤ maxValueSize) :
    (as.map withLength).map content = as.map content ∧ ∀ a ∈ as.map withLength, a.Sealed := by
  refine ⟨?_, List.forall_mem_map.2 fun a ha => sealed_withLength (h a ha)⟩
  rw [List.map_map]
  exact List.map_congr_left fun a _ => content_withLength a

theorem flatMap_wire_withLength (order : ByteOrder) (h : ∀ a ∈ as, a.value.length ≤ maxValueSize) :
    (as.map withLength).flatMap (wire order) = as.flatMap (image order) := by
  rw [List.flatMap_map]
  exact List.flatMap_congr fun a ha => wire_withLength order (h a ha)

/-- The room that an attribute takes is that of what it stands for. -/
theorem length_image (order : ByteOrder) (a : Attribute) :
    (a.image order).length = a.wireSize := by
  simp only [image, List.length_append, ByteOrder.length_write, ByteOrder.length_bytesOfU16,
    Bytes.length_zeros, wireSize, wordAlign, headerSize]
  omega

/-! ### The loop -/

/-- Attributes whose values fit are written, with their lengths set, and then those behind them. -/
theorem encodeAll_append (h : ∀ b ∈ before, b.value.length ≤ maxValueSize)
    (after : List Attribute) :
    encodeAll order (before ++ after) =
      (before.map withLength ++ (encodeAll order after).1,
        (encodeAll order after).2.map (before.flatMap (image order) ++ ·)) := by
  induction before with
  | nil =>
    rw [List.nil_append]
    rcases encodeAll order after with ⟨rest, e | bytes⟩ <;> rfl
  | cons b before ih =>
    obtain ⟨hb, hbefore⟩ := List.forall_mem_cons.1 h
    have hfirst : b.encode order = .ok (b.withLength, b.image order) := by
      rw [← wire_withLength order hb]
      exact encode_of_le hb
    rw [List.cons_append, encodeAll, hfirst, ih hbefore]
    rcases encodeAll order after with ⟨rest, e | bytes⟩
    · rfl
    · simp [Except.map]

/-- If all values fit, all attributes are written. -/
theorem encodeAll_of_fits (h : ∀ a ∈ as, a.value.length ≤ maxValueSize) :
    encodeAll order as = (as.map withLength, .ok (as.flatMap (image order))) := by
  have hall : encodeAll order (as ++ []) = _ := encodeAll_append h []
  rwa [List.append_nil, encodeAll, Except.map, List.append_nil, List.append_nil] at hall

/-- A value that is too large stops the writing, and nothing has happened to its attribute and those
behind it. -/
theorem encodeAll_of_large (h : ∀ b ∈ before, b.value.length ≤ maxValueSize)
    (ha : maxValueSize < a.value.length) (after : List Attribute) :
    encodeAll order (before ++ a :: after) =
      (before.map withLength ++ a :: after,
        .error (.invalidAttribute (.tooLarge a.value.length))) := by
  rw [encodeAll_append h, encodeAll, encode_of_lt ha]
  rfl

/-- All values fit, or one is the first that is too large. -/
theorem fit_or_first_large (as : List Attribute) :
    (∀ a ∈ as, a.value.length ≤ maxValueSize) ∨ ∃ before a after, as = before ++ a :: after ∧
      (∀ b ∈ before, b.value.length ≤ maxValueSize) ∧ maxValueSize < a.value.length := by
  cases hfind : as.find? fun a => decide (maxValueSize < a.value.length) with
  | none =>
    rw [List.find?_eq_none] at hfind
    exact Or.inl fun a ha => by simpa using hfind a ha
  | some a =>
    obtain ⟨hlarge, before, after, hsplit, hbefore⟩ := List.find?_eq_some_iff_append.1 hfind
    exact Or.inr ⟨before, a, after, hsplit, fun b hb => by simpa using hbefore b hb,
      by simpa using hlarge⟩

/-- Attributes are written exactly if the length fields can count all their values. They are written
back to back, each with its length set. -/
theorem encodeAll_eq_ok_iff {written : List Attribute} {bytes : Bytes} :
    encodeAll order as = (written, .ok bytes) ↔
      (∀ a ∈ as, a.value.length ≤ maxValueSize) ∧
      written = as.map withLength ∧ bytes = written.flatMap (wire order) := by
  constructor
  · intro h
    rcases fit_or_first_large as with hfit | ⟨before, a, after, rfl, hbefore, ha⟩
    · rw [encodeAll_of_fits hfit, ← flatMap_wire_withLength order hfit] at h
      obtain ⟨rfl, hbytes⟩ := Prod.mk.inj h
      exact ⟨hfit, rfl, (Except.ok.inj hbytes).symm⟩
    · rw [encodeAll_of_large hbefore ha] at h
      cases (Prod.mk.inj h).2
  · rintro ⟨hfit, rfl, rfl⟩
    rw [encodeAll_of_fits hfit, flatMap_wire_withLength order hfit]

/-- Attributes that differ in their length fields only give the same bytes, or the same error. -/
theorem encodeAll_congr {as' : List Attribute} (h : as'.map content = as.map content) :
    (encodeAll order as').2 = (encodeAll order as).2 := by
  induction as generalizing as' with
  | nil =>
    rw [List.map_nil, List.map_eq_nil_iff] at h
    rw [h]
  | cons a as ih =>
    obtain ⟨a', as', rfl, ha, has⟩ := List.map_eq_cons_iff.1 h
    obtain ⟨htype, hvalue⟩ := Prod.mk.inj ha
    have hencode : a'.encode order = a.encode order := by
      rw [encode, encode, sealed, sealed, htype, hvalue]
    rw [encodeAll, encodeAll, hencode]
    cases a.encode order with
    | error e => rfl
    | ok written => exact congrArg (Except.map (written.2 ++ ·)) (ih has)

/-! ### The result -/

/-- Attributes are written exactly if no value is larger than a length field can count. Then the
bytes are those that the attributes stand for, one behind the other, and each attribute has its
length set; writing them again changes nothing. Otherwise the first value that is too large stops
the writing: the lengths in front of it have been set, and nothing else has been touched. The
length fields that there were have no part in what is written. -/
theorem encodeAll_exact (order : ByteOrder) (as : List Attribute) :
    maxValueSize = 65531 ∧
    ((∃ bytes, (encodeAll order as).2 = .ok bytes) ↔ ∀ a ∈ as, a.value.length ≤ maxValueSize) ∧
    ((∀ a ∈ as, a.value.length ≤ maxValueSize) → ∃ written,
      written.map content = as.map content ∧ (∀ a ∈ written, a.Sealed) ∧
      (as.flatMap (image order)).length = (as.map wireSize).sum ∧
      encodeAll order as = (written, .ok (as.flatMap (image order))) ∧
      encodeAll order written = (written, .ok (as.flatMap (image order)))) ∧
    ((∃ a ∈ as, maxValueSize < a.value.length) → ∃ before a after written,
      as = before ++ a :: after ∧ (∀ b ∈ before, b.value.length ≤ maxValueSize) ∧
      maxValueSize < a.value.length ∧
      written.map content = before.map content ∧ (∀ b ∈ written, b.Sealed) ∧
      encodeAll order as =
        (written ++ a :: after, .error (.invalidAttribute (.tooLarge a.value.length)))) ∧
    ∀ as', as'.map content = as.map content → (encodeAll order as').2 = (encodeAll order as).2 := by
  refine ⟨rfl, ⟨?_, fun h => ⟨_, congrArg Prod.snd (encodeAll_of_fits h)⟩⟩, ?_, ?_,
    fun as' => encodeAll_congr⟩
  · rintro ⟨bytes, hbytes⟩
    exact (encodeAll_eq_ok_iff.1 (Prod.ext rfl hbytes)).1
  · intro h
    obtain ⟨hcontent, hsealed⟩ := map_withLength h
    refine ⟨as.map withLength, hcontent, hsealed, ?_, encodeAll_of_fits h, ?_⟩
    · simp only [List.length_flatMap, length_image]
    · rw [encodeAll_of_sealed hsealed, flatMap_wire_withLength order h]
  · rintro ⟨large, hmem, hlarge⟩
    rcases fit_or_first_large as with hfit | ⟨before, a, after, rfl, hbefore, ha⟩
    · exact absurd (hfit large hmem) (Nat.not_le.2 hlarge)
    · obtain ⟨hcontent, hsealed⟩ := map_withLength hbefore
      exact ⟨before, a, after, before.map withLength, rfl, hbefore, ha, hcontent, hsealed,
        encodeAll_of_large hbefore ha after⟩

example :
    encodeAll .big [{ length := 999, type := 2, value := [110, 108, 0] }, { type := 7 }] =
      ([{ length := 7, type := 2, value := [110, 108, 0] }, { length := 4, type := 7 }],
        .ok [0, 7, 0, 2, 110, 108, 0, 0, 0, 4, 0, 7]) := by decide

end Attribute

end GenericNetlink
