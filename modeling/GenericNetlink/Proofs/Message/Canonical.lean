import GenericNetlink.Proofs.Grammar
import GenericNetlink.Proofs.Packing

/-!
Streams of messages and their canonical form.

A buffer is read as messages exactly if it splits into chunks, and as the messages of these; any
other one is malformed. What was read is written back as it was, up to padding and tail, and what
was written is read back (`decodeAll_canonical`).
-/

namespace GenericNetlink

namespace Message

/-- Writes messages back to back: each one with its length set, and the bytes of all. -/
def encodeAll (order : ByteOrder) (ms : List Message) : Except Error (List Message × Bytes) :=
  (ms.mapM (encode order)).map fun written => (written.map Prod.fst, written.flatMap Prod.snd)

variable {order : ByteOrder} {ms : List Message}

/-- Messages are written if the length field can say the length of each. -/
theorem encodeAll_of_fits (h : ∀ m ∈ ms, m.size < sizeLimit) :
    encodeAll order ms =
      .ok (ms.map withLength, (ms.map withLength).flatMap (wire order)) := by
  have hwritten : ms.mapM (encode order) =
      .ok (ms.map fun m => (m.withLength, m.withLength.wire order)) :=
    mapM_eq_pure_map fun m hm => encode_eq_ok_iff.2 ⟨h m hm, rfl, rfl⟩
  rw [encodeAll, hwritten, List.flatMap_map]
  simp [Except.map, List.flatMap_map]

theorem Sealed.fits {m : Message} (h : m.Sealed) : m.size < sizeLimit :=
  h ▸ m.header.length.toNat_lt

theorem Sealed.withLength_eq {m : Message} (h : m.Sealed) : m.withLength = m := by
  rw [withLength, ← h, UInt32.ofNat_toNat]

/-- Messages whose lengths are right are written as they are. -/
theorem encodeAll_of_sealed (h : ∀ m ∈ ms, m.Sealed) :
    encodeAll order ms = .ok (ms, ms.flatMap (wire order)) := by
  have hsame : ms.map withLength = ms := by
    simpa using List.map_congr_left (g := id) fun m hm => (h m hm).withLength_eq
  rw [encodeAll_of_fits fun m hm => (h m hm).fits, hsame]

/-- Messages that were read have the right lengths. -/
theorem sealed_of_decodeAll {data : Bytes} (h : decodeAll order data = .ok ms) :
    ∀ m ∈ ms, m.Sealed := by
  obtain ⟨chunks, tail, hsplits, rfl⟩ := Format.collect_eq_ok_iff.1 h
  exact List.forall_mem_map.2 fun c hc => (hsplits.frames c hc).declares

/-- Exactly the buffers that split into chunks are read, as the messages of the chunks, and any
other one is malformed. The messages that are read are written back as the chunks with zeros for
padding, and messages that are written are read back with their lengths set. -/
theorem decodeAll_canonical (order : ByteOrder) :
    (∀ data ms, decodeAll order data = .ok ms ↔
      ∃ chunks tail, (format order).Splits data chunks tail ∧
        ms = chunks.map (format order).record) ∧
    (∀ data, (∃ fault, decodeAll order data = .error (.malformedMessage fault)) ↔
      ¬ ∃ chunks tail, (format order).Splits data chunks tail) ∧
    (∀ data chunks tail, (format order).Splits data chunks tail →
      data = chunks.flatMap Chunk.bytes ++ tail ∧ tail.length < Header.size ∧
      encodeAll order (chunks.map (format order).record) =
        .ok (chunks.map (format order).record, chunks.flatMap Chunk.canonical)) ∧
    ∀ ms : List Message, (∀ m ∈ ms, m.size < sizeLimit) →
      ∃ b, encodeAll order ms = .ok (ms.map withLength, b) ∧
        decodeAll order b = .ok (ms.map withLength) := by
  refine ⟨fun data ms => Format.collect_eq_ok_iff, fun data => ⟨?_, ?_⟩, ?_, ?_⟩
  · rintro ⟨fault, hfault⟩ ⟨chunks, tail, hsplits⟩
    exact absurd (hfault.symm.trans hsplits.collect_eq) (by simp)
  · intro hnone
    cases hd : decodeAll order data with
    | error e =>
      obtain ⟨fault, rfl⟩ := malformed_of_decodeAll hd
      exact ⟨fault, rfl⟩
    | ok ms =>
      obtain ⟨chunks, tail, hsplits, -⟩ := Format.collect_eq_ok_iff.1 hd
      exact absurd ⟨chunks, tail, hsplits⟩ hnone
  · intro data chunks tail hsplits
    have hsealed := sealed_of_decodeAll hsplits.collect_eq
    refine ⟨hsplits.bytes_eq, hsplits.length_tail_lt, ?_⟩
    rw [encodeAll_of_sealed hsealed, ← (writer order).flatMap_wire_records hsplits.frames]
    rfl
  · intro ms hfits
    refine ⟨_, encodeAll_of_fits hfits, decodeAll_wires order ?_⟩
    exact List.forall_mem_map.2 fun m hm => sealed_withLength (hfits m hm)

end Message

end GenericNetlink
