import GenericNetlink.Proofs.Items
import GenericNetlink.Proofs.Message.Canonical
import GenericNetlink.Proofs.Request.Basic
import Mathlib.Algebra.GroupWithZero.Nat

/-!
Where the bytes of a reply come from.

What is received is filled up with zeros to a word boundary, so that the last message may come
without padding, and the messages that a request gives stand in these bytes. They stand in what was
received itself unless a delivery ends within its last message (`Delivery.CutOff`): where at most
three bytes of that one are missing, the zeros are taken for them (`request_ok_provenance`).
-/

namespace GenericNetlink

/-- What stands somewhere in padded bytes and ends before the padding stands there in the bytes. -/
theorem Bytes.prefix_drop_of_padded {b content : Bytes} {offset : Nat}
    (h : content <+: b.padded.drop offset) (hend : offset + content.length ≤ b.length) :
    content <+: b.drop offset := by
  rw [padded, List.drop_append_of_le_length (by omega)] at h
  refine List.prefix_of_prefix_length_le h (List.prefix_append ..) ?_
  rw [List.length_drop]
  omega

namespace Message

/-- Header and payload. -/
def content (order : ByteOrder) (m : Message) : Bytes := m.header.bytes order ++ m.payload

/-- The room that messages take before the next one begins. -/
def room (ms : List Message) : Nat := (ms.map wireSize).sum

/-- The messages stand in the bytes one behind the other, each with its header and its whole
payload. -/
def StandIn (order : ByteOrder) (b : Bytes) (ms : List Message) : Prop :=
  ∀ before m after, ms = before ++ m :: after → m.content order <+: b.drop (room before)

variable {order : ByteOrder} {b : Bytes} {ms : List Message}

@[simp] theorem length_content (order : ByteOrder) (m : Message) :
    (m.content order).length = m.size := by
  rw [content, List.length_append, Header.length_bytes, size]

/-- A message takes more than the padding of the one before it. -/
theorem headerSize_le_size (m : Message) : Header.size ≤ m.size := Nat.le_add_right ..

theorem length_wires (order : ByteOrder) (ms : List Message) :
    (ms.flatMap (wire order)).length = room ms := by
  simp [room, List.length_flatMap]

/-- Messages stand in the bytes that they were read off. -/
theorem standIn_of_decodeAll (h : decodeAll order b = .ok ms) : StandIn order b ms := by
  intro before m after hms
  have hroom : (writer order).room before = room before := length_wires order before
  rw [← hroom]
  exact (writer order).content_prefix_drop ((Format.records_of_collect h).trans hms)

/-- Messages that stand in padded bytes stand in the bytes exactly if the last one of them ends
there. -/
theorem standIn_iff (h : StandIn order b.padded ms) :
    StandIn order b ms ↔
      ∀ before m, ms = before ++ [m] → room before + m.size ≤ b.length := by
  constructor
  · intro hstand before m hms
    have hlen := (hstand before m [] hms).length_le
    have hsize : Header.size ≤ m.size := m.headerSize_le_size
    rw [length_content, List.length_drop] at hlen
    simp only [Header.size] at hsize
    omega
  · intro hlast before m after hms
    refine Bytes.prefix_drop_of_padded (h before m after hms) ?_
    rw [length_content]
    cases after with
    | nil => exact hlast before m hms
    | cons m' after =>
      -- behind this message there is the header of another one, which padding cannot make up
      have hnext := (h (before ++ [m]) m' after (by simp [hms])).length_le
      have hsize : Header.size ≤ m'.size := m'.headerSize_le_size
      have hle := le_wordAlign m.size
      have hlt := wordAlign_lt b.length
      rw [length_content, List.length_drop, Bytes.length_padded] at hnext
      simp only [room, List.map_append, List.map_singleton, List.sum_append, List.sum_singleton,
        wireSize] at hnext ⊢
      simp only [Header.size] at hsize
      omega

end Message

namespace Delivery

/-- The delivery ends before its last message does, whose header declares a length that goes
beyond the bytes received. -/
def CutOff (host : Host) (d : Delivery) : Prop :=
  ∃ before m, d.Brings host (before ++ [m]) ∧
    (d.received host.page).length < Message.room before + m.header.length.toNat

variable {host : Host} {d : Delivery} {batch : List Message}

/-- The messages of a delivery stand in what was received exactly if it is not cut off. -/
theorem Brings.standIn_received_iff (h : d.Brings host batch) :
    Message.StandIn host.order (d.received host.page) batch ↔ ¬ d.CutOff host := by
  rw [Message.standIn_iff (Message.standIn_of_decodeAll h.parses)]
  constructor
  · rintro hends ⟨before, m, hcut, hlt⟩
    have hsealed := Message.sealed_of_decodeAll hcut.parses m (by simp)
    have := hends before m (h.unique hcut)
    rw [hsealed] at hlt
    omega
  · rintro hcut before m rfl
    have hsealed := Message.sealed_of_decodeAll h.parses m (by simp)
    by_contra hlt
    exact hcut ⟨before, m, h, by rw [hsealed]; omega⟩

/-- Every message of the deliveries is in what one of them brings. -/
theorem exists_brings {ds : List Delivery} {batches : List (List Message)}
    (h : List.Forall₂ (Brings host) ds batches) {x : Message} (hx : x ∈ batches.flatten) :
    ∃ d ∈ ds, ∃ before after, d.Brings host (before ++ x :: after) := by
  induction h with
  | nil => simp at hx
  | @cons d batch ds batches hd _ ih =>
    rw [List.flatten_cons, List.mem_append] at hx
    rcases hx with hx | hx
    · obtain ⟨before, after, rfl⟩ := List.append_of_mem hx
      exact ⟨d, List.mem_cons_self, before, after, hd⟩
    · obtain ⟨d', hd', before, after, hbrings⟩ := ih hx
      exact ⟨d', List.mem_cons_of_mem d hd', before, after, hbrings⟩

end Delivery

namespace Connection

variable {σ : Type} [Transport σ] [Mailbox σ]

/-- A successful request gives messages of the deliveries that it has received. Those of each one
stand in its bytes, filled up with zeros to a word boundary, and in what was received exactly if the
delivery is not cut off. If none is, every message that is given is bytes of a datagram. -/
theorem request_ok_provenance (c : Connection σ) (m : Message) {replies : List Message}
    (h : (c.request m).1 = .ok replies) :
    ∃ t consumed batches, c.Sent m t ∧
      Mailbox.inbox t = consumed ++ Mailbox.inbox (c.request m).2.transport ∧
      List.Forall₂ (Delivery.Brings c.toHost) consumed batches ∧
      Reply.HandsOver batches.flatten replies ∧
      List.Forall₂ (fun d batch => Message.StandIn c.order (d.received c.page).padded batch ∧
        (Message.StandIn c.order (d.received c.page) batch ↔ ¬ d.CutOff c.toHost))
        consumed batches ∧
      ((∀ d ∈ consumed, ¬ d.CutOff c.toHost) →
        ∀ x ∈ replies, ∃ d ∈ consumed, ∃ offset, x.content c.order <+: d.taken.drop offset) := by
  obtain ⟨t, early, batches, last, final, hsent, hi, hc, hkept⟩ := exists_complete_of_ok h
  have hbrings : List.Forall₂ (Delivery.Brings c.toHost) (early ++ [last]) (batches ++ [final]) :=
    List.rel_append hc.brings (.cons hc.lastBrings .nil)
  rw [← List.flatten_singleton (l := final), ← List.flatten_append] at hkept
  refine ⟨t, early ++ [last], batches ++ [final], hsent, by simpa using hi, hbrings, hkept,
    hbrings.imp fun d batch hd =>
      ⟨Message.standIn_of_decodeAll hd.parses, hd.standIn_received_iff⟩, ?_⟩
  intro hcut x hx
  obtain ⟨d, hd, before, after, hd'⟩ := Delivery.exists_brings hbrings (hkept.mem x hx)
  have hstand := hd'.standIn_received_iff.2 (hcut d hd) before x after rfl
  rw [Delivery.received, List.drop_take] at hstand
  exact ⟨d, hd, Message.room before, hstand.trans (List.take_prefix ..)⟩

/-- Two messages in one datagram that is not cut off. -/
theorem request_ok_provenance_of_two_messages :
    let part := Message.ofParts 0x1a MessageFlag.multi 5 7 [1]
    let marker := Message.ofParts MessageType.done MessageFlag.multi 5 7 [0, 0, 0, 0]
    let d := Delivery.ofBytes ([part, marker].flatMap (Message.wire .little))
    let c : Connection Script :=
      { transport := { inbox := [d] }, sequence := 5, portId := 7, order := .little }
    let m := Message.make 0x1a MessageFlag.dump [1]
    (c.request m).1 = .ok [part] ∧ ¬ d.CutOff c.toHost ∧
      ∃ offset, part.content .little <+: d.taken.drop offset := by
  intro part marker d c m
  have hbrings : d.Brings c.toHost [part, marker] := Delivery.brings_wires (by decide)
  have hcomplete : Reply.Complete c.toHost (c.outgoing m).header [] [] d [part, marker] :=
    { toUnfinished := Reply.unfinished_nil, lastBrings := hbrings
      lastAnswers := by decide, ends := by decide }
  have hsent : c.Sent m c.transport := ⟨rfl, by decide, rfl⟩
  obtain ⟨hok, hleft⟩ := request_of_complete hsent rfl hcomplete
  have hcut : ¬ d.CutOff c.toHost := by
    have hstand := Message.standIn_of_decodeAll hbrings.parses
    rw [Delivery.received_ofBytes, Bytes.padded_of_mod (by decide)] at hstand
    refine hbrings.standIn_received_iff.1 ?_
    rwa [Delivery.received_ofBytes]
  obtain ⟨t, consumed, batches, hsent', hi, -, -, -, hgiven⟩ := request_ok_provenance c m hok
  obtain rfl := (Prod.mk.inj (hsent.sends.symm.trans hsent'.sends)).2
  obtain rfl : [d] = consumed := by rw [hleft, List.append_nil] at hi; exact hi
  obtain ⟨d', hd', hoffset⟩ := hgiven (List.forall_mem_singleton.2 hcut) part (by simp)
  obtain rfl := List.mem_singleton.1 hd'
  exact ⟨hok, hcut, hoffset⟩

/-- Of a message of eighteen bytes only seventeen arrive, and the request gives the message, with a
byte that the datagram does not have. One byte less, and the request fails. -/
theorem cut_off_datagram_gives_message :
    let sent := Message.ofParts 0x1a 0 5 7 [1, 0]
    let arriving (size : Nat) := Delivery.ofBytes ((sent.wire .little).take size)
    let holding (d : Delivery) : Connection Script :=
      { transport := { inbox := [d] }, sequence := 5, portId := 7, order := .little }
    let m := Message.make 0x1a MessageFlag.request [1]
    (arriving 17).CutOff (holding (arriving 17)).toHost ∧
      ((holding (arriving 17)).request m).1 = .ok [sent] ∧
      Mailbox.inbox ((holding (arriving 17)).request m).2.transport = [] ∧
      (¬ ∃ offset, sent.content .little <+: (arriving 17).taken.drop offset) ∧
      ((holding (arriving 16)).request m).1 = .error (.malformedMessage (.badLength 18 16)) := by
  intro sent arriving holding m
  have hsent (d : Delivery) : (holding d).Sent m (holding d).transport := ⟨rfl, by decide, rfl⟩
  -- the byte that does not arrive is a zero, as padding is
  have hpadded : Bytes.padded ((sent.wire .little).take 17) =
      [sent].flatMap (Message.wire .little) := by decide
  have hbrings : (arriving 17).Brings (holding (arriving 17)).toHost ([] ++ [sent]) :=
    { shown := rfl
      taken := rfl
      parses := by
        rw [Delivery.received_ofBytes, hpadded]
        exact Message.decodeAll_wires .little (by decide) }
  have hcomplete : Reply.Complete (holding (arriving 17)).toHost
      ((holding (arriving 17)).outgoing m).header [] [] (arriving 17) [sent] :=
    { toUnfinished := Reply.unfinished_nil, lastBrings := hbrings
      lastAnswers := by decide, ends := by decide }
  have hparse : Message.decodeAll .little ((arriving 16).received .fallback).padded =
      .error (.malformedMessage (.badLength 18 16)) := by
    rw [Delivery.received_ofBytes, Bytes.padded_of_mod (by decide)]
    exact (Message.format .little).collect_of_decode_error (by decide) (by decide)
  obtain ⟨hok, hleft⟩ := request_of_complete (hsent _) rfl hcomplete
  refine ⟨⟨[], sent, hbrings, ?_⟩, hok, hleft, ?_, ?_⟩
  · rw [Delivery.received_ofBytes]
    decide
  · rintro ⟨offset, hprefix⟩
    have hlen := hprefix.length_le
    rw [Message.length_content, List.length_drop] at hlen
    have hsize : sent.size = 18 := rfl
    have htaken : (arriving 17).taken.length = 17 := by decide
    omega
  · exact (request_of_fault (hsent _) rfl Reply.unfinished_nil
      (.head (.malformed rfl rfl hparse))).1

end Connection

end GenericNetlink
