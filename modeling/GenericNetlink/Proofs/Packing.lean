import GenericNetlink.Proofs.Delivery
import Mathlib.Data.List.Forall2

/-!
Messages cut into datagrams.

A sender encodes messages back to back and cuts them into datagrams where one message ends and the
next begins. The zeros behind the last message of a datagram say nothing, so a sender may leave
them out (`Message.Packed`). Reading gives the messages of each datagram back with their lengths
set (`Message.Packed.brings`), and of messages with a special one at the end, the last datagram
has that one at its end (`Message.Cut.concat`).
-/

namespace GenericNetlink

/-! ### Padding -/

namespace Bytes

theorem padded_append {a : Bytes} (h : a.length % 4 = 0) (b : Bytes) :
    (a ++ b).padded = a ++ b.padded := by
  have hpad : wordAlign (a.length + b.length) - (a.length + b.length) =
      wordAlign b.length - b.length := by
    unfold wordAlign; omega
  rw [padded, padded, List.length_append, hpad, List.append_assoc]

/-- Padding that is cut off, in part or as a whole, is made up for. -/
theorem padded_take_padded {a : Bytes} {size : Nat} (h : a.length ≤ size) :
    padded (a.padded.take size) = a.padded := by
  have hle := le_wordAlign a.length
  have hcut : a.padded.take size = a ++ zeros (min (size - a.length)
      (wordAlign a.length - a.length)) := by
    rw [padded, List.take_append, List.take_of_length_le h, zeros, List.take_replicate, zeros]
  have hpad : wordAlign (a.length + min (size - a.length) (wordAlign a.length - a.length)) =
      wordAlign a.length := by
    unfold wordAlign at hle ⊢; omega
  rw [hcut, padded, List.length_append, length_zeros, hpad, List.append_assoc, padded]
  refine congrArg (a ++ ·) ?_
  rw [zeros, zeros, List.replicate_append_replicate, zeros]
  congr 1
  omega

end Bytes

namespace Message

/-! ### Encoded messages -/

/-- The message with the size of header and payload as its length. -/
def withLength (m : Message) : Message :=
  { m with header := { m.header with length := UInt32.ofNat m.size } }

@[simp] theorem isDone_withLength (m : Message) : m.withLength.isDone = m.isDone := rfl

@[simp] theorem isMulti_withLength (m : Message) : m.withLength.isMulti = m.isMulti := rfl

@[simp] theorem size_withLength (m : Message) : m.withLength.size = m.size := rfl

theorem sealed_withLength {m : Message} (h : m.size < sizeLimit) : m.withLength.Sealed :=
  UInt32.toNat_ofNat_of_lt' h

theorem encode_eq_ok_iff {order : ByteOrder} {m n : Message} {b : Bytes} :
    m.encode order = .ok (n, b) ↔ m.size < sizeLimit ∧ n = m.withLength ∧ b = n.wire order := by
  unfold encode
  constructor
  · intro h
    cases hs : m.sealed with
    | error e => rw [hs] at h; simp [Except.map] at h
    | ok k =>
      rw [hs] at h
      obtain ⟨rfl, rfl⟩ := Prod.mk.inj (Except.ok.inj h)
      obtain ⟨hfits, rfl⟩ := sealed_eq_ok_iff.1 hs
      exact ⟨hfits, rfl, rfl⟩
  · rintro ⟨hfits, rfl, rfl⟩
    rw [sealed_eq_ok_iff.2 ⟨hfits, rfl⟩]
    rfl

/-- An encoded message is decoded to itself. -/
theorem decode_wire {order : ByteOrder} {m : Message} (h : m.Sealed) :
    decode order (m.wire order) = .ok m := by
  have hread := (Format.Writer.decode_wire_append (h.writer order) []).1
  rwa [List.append_nil] at hread

/-! ### Datagrams -/

/-- A group of messages as one datagram: they are encoded back to back, and the last one may be
cut off anywhere behind its payload. -/
inductive Packed (order : ByteOrder) : List Message → Bytes → Prop
  | last {m n : Message} {b : Bytes} {size : Nat} : m.encode order = .ok (n, b) → m.size ≤ size →
      Packed order [m] (b.take size)
  | cons {m n : Message} {b rest : Bytes} {group : List Message} : m.encode order = .ok (n, b) →
      Packed order group rest → Packed order (m :: group) (b ++ rest)

/-- Messages as datagrams: they are cut into groups, each of which is one datagram. -/
def Cut (order : ByteOrder) (messages : List Message) (datagrams : List Bytes) : Prop :=
  ∃ groups, groups.flatten = messages ∧ List.Forall₂ (Packed order) groups datagrams

variable {order : ByteOrder} {group : List Message} {b : Bytes}

theorem Packed.ne_nil (h : Packed order group b) : group ≠ [] := by
  cases h <;> simp

theorem Packed.fits (h : Packed order group b) : ∀ m ∈ group, m.size < sizeLimit := by
  induction h with
  | last he _ => simpa using (encode_eq_ok_iff.1 he).1
  | cons he _ ih => exact List.forall_mem_cons.2 ⟨(encode_eq_ok_iff.1 he).1, ih⟩

/-- Padding completes a datagram to the encoded messages. -/
theorem Packed.padded_eq (h : Packed order group b) :
    b.padded = (group.map withLength).flatMap (wire order) := by
  induction h with
  | @last m n b size he hsize =>
    obtain ⟨-, rfl, rfl⟩ := encode_eq_ok_iff.1 he
    have hlen : (m.withLength.header.bytes order ++ m.withLength.payload).length ≤ size := by
      rw [List.length_append, Header.length_bytes]
      exact hsize
    rw [wire, Bytes.padded_take_padded hlen]
    simp [wire]
  | @cons m n b rest group he _ ih =>
    obtain ⟨-, rfl, rfl⟩ := encode_eq_ok_iff.1 he
    have hmod : (m.withLength.wire order).length % 4 = 0 := by
      rw [length_wire]
      exact wordAlign_mod _
    rw [Bytes.padded_append hmod, ih, List.map_cons, List.flatMap_cons]

/-- A datagram brings the messages that were packed into it, with their lengths set. -/
theorem Packed.brings {host : Host} (h : Packed host.order group b) :
    (Delivery.ofBytes b).Brings host (group.map withLength) where
  shown := rfl
  taken := rfl
  parses := by
    have hsealed : ∀ m ∈ group.map withLength, m.Sealed :=
      List.forall_mem_map.2 fun m hm => sealed_withLength (h.fits m hm)
    rw [Delivery.received_ofBytes, h.padded_eq, decodeAll_wires host.order hsealed]

/-! ### Cuts -/

theorem Cut.ne_nil {messages : List Message} {datagrams : List Bytes}
    (h : Cut order messages datagrams) (hne : messages ≠ []) : datagrams ≠ [] := by
  obtain ⟨groups, rfl, hpacked⟩ := h
  cases hpacked with
  | nil => simp at hne
  | cons _ _ => simp

/-- Each datagram begins with one of the messages. -/
theorem Cut.begins {host : Host} {messages : List Message} {datagrams : List Bytes}
    (h : Cut host.order messages datagrams) :
    ∀ b ∈ datagrams, ∃ m ∈ messages, ∃ batch,
      (Delivery.ofBytes b).Brings host (m.withLength :: batch) := by
  obtain ⟨groups, rfl, hpacked⟩ := h
  induction hpacked with
  | nil => simp
  | @cons group b groups datagrams hgroup _ ih =>
    refine List.forall_mem_cons.2 ⟨?_, fun b' hb' => ?_⟩
    · obtain ⟨m, after, rfl⟩ := List.exists_cons_of_ne_nil hgroup.ne_nil
      exact ⟨m, by simp, _, hgroup.brings⟩
    · obtain ⟨m, hm, hbrings⟩ := ih b' hb'
      exact ⟨m, List.mem_append_right _ hm, hbrings⟩

/-- Where messages with a special one behind them are cut, the last group has that one at its end,
and the groups before it are cut out of the others. -/
theorem Cut.concat {front : List Message} {m : Message} {datagrams : List Bytes}
    (h : Cut order (front ++ [m]) datagrams) :
    ∃ groups final early last, datagrams = early ++ [last] ∧ groups.flatten ++ final = front ∧
      List.Forall₂ (Packed order) groups early ∧ Packed order (final ++ [m]) last := by
  obtain ⟨groups, hflat, hpacked⟩ := h
  induction hpacked generalizing front with
  | nil => simp at hflat
  | @cons group b groups datagrams hgroup hrest ih =>
    cases hrest with
    | nil =>
      rw [List.flatten_singleton] at hflat
      exact ⟨[], front, [], b, rfl, rfl, .nil, hflat ▸ hgroup⟩
    | @cons group' b' groups datagrams hgroup' hrest =>
      -- a group is not empty, so the special message is behind this one
      obtain ⟨between, x, hx⟩ := (List.eq_nil_or_concat (group' :: groups).flatten).resolve_left
        (by simp [hgroup'.ne_nil])
      rw [List.concat_eq_append] at hx
      rw [List.flatten_cons, hx, ← List.append_assoc] at hflat
      obtain ⟨rfl, hm⟩ := List.append_inj' hflat rfl
      obtain ⟨before, final, early, last, hsplit, hfront, hearly, hlast⟩ := ih (hm ▸ hx)
      refine ⟨group :: before, final, b :: early, last, ?_, ?_, .cons hgroup hearly, hlast⟩
      · rw [hsplit, List.cons_append]
      · rw [List.flatten_cons, List.append_assoc, hfront]

end Message

end GenericNetlink
