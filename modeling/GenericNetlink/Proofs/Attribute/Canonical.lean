import GenericNetlink.Attribute.Stream
import GenericNetlink.Proofs.Grammar
import Mathlib.Algebra.GroupWithZero.Nat

/-!
Streams of attributes and their canonical form.

Attributes that were read are written back as they were, with zeros for padding and without the
tail, and reading that gives them again (`items_canonical`). So what attributes a stream holds does
not depend on its padding and its tail.
-/

namespace GenericNetlink

namespace Attribute

/-- The length field is that of header and value. -/
def Sealed (a : Attribute) : Prop := a.length.toNat = headerSize + a.value.length

instance (a : Attribute) : Decidable a.Sealed := inferInstanceAs (Decidable (_ = _))

variable {order : ByteOrder} {a : Attribute} {as : List Attribute}

/-- Four bytes are the header of the attribute that they stand for. -/
theorem header_build (order : ByteOrder) {h : Bytes} (hlen : h.length = headerSize)
    (value : Bytes) : ((format order).build h value).header order = h := by
  have hlow : (h.take 2).length = 2 := List.length_take_of_le (by rw [hlen]; decide)
  have hrest : (h.drop 2).length = 2 := by rw [List.length_drop, hlen]; rfl
  have hhigh : (h.drop 2).take 2 = h.drop 2 := List.take_of_length_le (Nat.le_of_eq hrest)
  simp only [format, header, lengthField, typeField]
  rw [hhigh, order.bytesOfU16_u16OfBytes hlow, order.bytesOfU16_u16OfBytes hrest,
    List.take_append_drop]

/-- How attributes are written. -/
def writer (order : ByteOrder) : (format order).Writer where
  header := header order
  body := value
  length_header := length_header order
  build_eq a := by simp only [format, lengthField_header, typeField_header]
  header_build value h := header_build order h value
  body_build _ _ := rfl

theorem Sealed.writer (h : a.Sealed) (order : ByteOrder) : (writer order).Sealed a := by
  have hread : (lengthField order (a.header order)).toNat = a.length.toNat := by
    rw [lengthField_header]
  exact hread.trans h

/-- What cannot be read as an attribute is an invalid one. -/
theorem invalid_of_decode {data : Bytes} {e : Error} (h : decode order data = .error e) :
    ∃ fault, e = .invalidAttribute fault := by
  rcases (format order).eq_of_decode_error h with rfl | ⟨declared, rfl⟩
  · exact ⟨_, rfl⟩
  · exact ⟨_, rfl⟩

theorem Sealed.fits (h : a.Sealed) : a.value.length ≤ maxValueSize := by
  have := a.length.toNat_lt
  unfold Sealed at h
  simp only [maxValueSize]
  omega

/-- An attribute whose value fits is written with its length set, whatever the length was. -/
theorem encode_of_le (h : a.value.length ≤ maxValueSize) :
    a.encode order = .ok (small a.type a.value, (small a.type a.value).wire order) := by
  have hsealed : a.sealed = .ok (small a.type a.value) := sealed_eq_ok_iff.2 ⟨h, rfl⟩
  rw [encode, hsealed]; rfl

theorem encode_of_lt (h : maxValueSize < a.value.length) :
    a.encode order = .error (.invalidAttribute (.tooLarge a.value.length)) := by
  have hsealed : a.sealed = .error (.invalidAttribute (.tooLarge a.value.length)) :=
    if_neg (Nat.not_le.2 h)
  rw [encode, hsealed]; rfl

/-- An attribute whose length is right is written as it is. -/
theorem encode_of_sealed (h : a.Sealed) : a.encode order = .ok (a, a.wire order) := by
  have hsame : a.sealed = .ok a := by
    rw [sealed_eq_ok_iff, ← h, UInt16.ofNat_toNat]
    exact ⟨h.fits, rfl⟩
  rw [encode, hsame]; rfl

/-- So are several of them. -/
theorem encodeAll_of_sealed (h : ∀ a ∈ as, a.Sealed) :
    encodeAll order as = (as, .ok (as.flatMap (wire order))) := by
  induction as with
  | nil => rfl
  | cons a as ih =>
    obtain ⟨ha, has⟩ := List.forall_mem_cons.1 h
    simp only [encodeAll, encode_of_sealed ha, ih has]
    rfl

/-- Exactly a value that the length can count makes an attribute. -/
theorem make_of_le {type : UInt16} {value : Bytes} (h : value.length ≤ maxValueSize) :
    make type value = .ok (small type value) :=
  sealed_eq_ok_iff.2 ⟨h, rfl⟩

theorem make_of_lt {type : UInt16} {value : Bytes} (h : maxValueSize < value.length) :
    make type value = .error (.invalidAttribute (.tooLarge value.length)) :=
  if_neg (Nat.not_le.2 h)

theorem sealed_small {type : UInt16} {value : Bytes} (h : value.length ≤ maxValueSize) :
    (small type value).Sealed := by
  have hlt : headerSize + value.length < UInt16.size := by
    simp only [maxValueSize, headerSize, UInt16.size] at h ⊢
    omega
  exact UInt16.toNat_ofNat_of_lt' hlt

/-- The value of a nested attribute is its children as they are. -/
theorem nest_of_sealed (order : ByteOrder) (type : UInt16) (h : ∀ a ∈ as, a.Sealed) :
    nest order type as = make (type ||| nestedFlag) (as.flatMap (wire order)) := by
  rw [nest, encodeAll_of_sealed h]; rfl

/-- Attributes that were written back to back are read back. -/
theorem items_wires (h : ∀ a ∈ as, a.Sealed) :
    items order (as.flatMap (wire order)) = as.map .ok :=
  (format order).collect_eq_ok_iff_items.1
    (Format.Writer.collect_wires fun a ha => (h a ha).writer order)

theorem length_wires (order : ByteOrder) (as : List Attribute) :
    (as.flatMap (wire order)).length = (as.map wireSize).sum := by
  simp [List.length_flatMap]

/-- A stream without a fault is chunks and a tail, and its attributes are those of the chunks. They
have the right lengths and are written back as the chunks with zeros for padding. What is written
takes the room that they say, ends at a word boundary, and is read as the same attributes; so is
every other stream of the same headers and values. -/
theorem items_canonical (order : ByteOrder) {data : Bytes} {as : List Attribute}
    (h : items order data = as.map .ok) :
    (∀ a ∈ as, a.Sealed) ∧
    ∃ chunks tail wire, (format order).Splits data chunks tail ∧
      as = chunks.map (format order).record ∧
      data = chunks.flatMap Chunk.bytes ++ tail ∧ tail.length < headerSize ∧
      encodeAll order as = (as, .ok wire) ∧ wire = chunks.flatMap Chunk.canonical ∧
      wire.length = (as.map wireSize).sum ∧ wire.length % 4 = 0 ∧
      items order wire = as.map .ok ∧
      ∀ data' chunks' tail', (format order).Splits data' chunks' tail' →
        chunks'.map Chunk.content = chunks.map Chunk.content →
        items order data' = as.map .ok := by
  have hcollect := (format order).collect_eq_ok_iff_items.2 h
  obtain ⟨chunks, tail, hsplits, rfl⟩ := Format.collect_eq_ok_iff.1 hcollect
  have hsealed : ∀ a ∈ chunks.map (format order).record, a.Sealed :=
    List.forall_mem_map.2 fun c hc => (hsplits.frames c hc).declares
  refine ⟨hsealed, chunks, tail, _, hsplits, rfl, hsplits.bytes_eq, hsplits.length_tail_lt,
    encodeAll_of_sealed hsealed, (writer order).flatMap_wire_records hsplits.frames,
    length_wires order _, (writer order).length_wires_mod _, items_wires hsealed, ?_⟩
  intro data' chunks' tail' hsplits' hsame
  refine (format order).collect_eq_ok_iff_items.1 ?_
  rw [hsplits.collect_eq_of_content hsplits' hsame, hcollect]

/-- Two attributes, the first one with padding that is not zero, and two bytes behind them. -/
theorem items_canonical_of_two_attributes :
    let data : Bytes := [5, 0, 3, 0, 42, 255, 255, 255, 4, 0, 1, 0, 9, 9]
    let as : List Attribute :=
      [{ length := 5, type := 3, value := [42] }, { length := 4, type := 1, value := [] }]
    let canonical : Bytes := [5, 0, 3, 0, 42, 0, 0, 0, 4, 0, 1, 0]
    items .little data = as.map .ok ∧ encodeAll .little as = (as, .ok canonical) ∧
      items .little canonical = as.map .ok := by
  intro data as canonical
  let first : Chunk := { header := [5, 0, 3, 0], body := [42], padding := [255, 255, 255] }
  let second : Chunk := { header := [4, 0, 1, 0], body := [], padding := [] }
  have hsplits : (format .little).Splits data [first, second] [9, 9] :=
    .cons (c := first) ⟨rfl, rfl⟩ (by decide)
      (.cons (c := second) ⟨rfl, rfl⟩ (by decide) (.tail (by decide)))
  have h : items .little data = as.map .ok :=
    (format .little).collect_eq_ok_iff_items.1 hsplits.collect_eq
  obtain ⟨-, _, _, wire, -, -, -, -, hencode, -, -, -, hitems, -⟩ := items_canonical .little h
  have hwire : encodeAll .little as = (as, .ok canonical) := by decide
  obtain rfl := Except.ok.inj (Prod.mk.inj (hencode.symm.trans hwire)).2
  exact ⟨h, hwire, hitems⟩

end Attribute

end GenericNetlink
