import GenericNetlink.Proofs.Response

/-!
The datagrams of a multi-part reply do not matter.

A sender may put the messages of a reply into one datagram, each into its own, or cut them in any
other way, and may leave out padding at the end of a datagram. The request gives the same parts
(`request_of_cut_parts`).
-/

namespace GenericNetlink.Connection

variable {σ : Type} [Transport σ] [Mailbox σ]

/-- A request gives the parts of its multi-part reply with their lengths set, and leaves the
datagrams behind the reply. Neither depends on how the parts and the end marker are cut into
datagrams, so two cuts come to the same. -/
theorem request_of_cut_parts (c : Connection σ) (m : Message) {t : σ} (hopen : c.closed = false)
    (hfits : m.size < Message.sizeLimit)
    (hsends : Transport.send (c.datagram m) c.transport = (.ok (), t))
    {parts : List Message} {marker : Message} (hne : parts ≠ [])
    (hparts : ∀ p ∈ parts, Reply.IsPart (c.outgoing m).header p)
    (hmarker : Reply.IsMarker (c.outgoing m).header marker)
    {datagrams : List Bytes} (hcut : Message.Cut c.order (parts ++ [marker]) datagrams)
    {rest : Inbox} (hinbox : Mailbox.inbox t = datagrams.map Delivery.ofBytes ++ rest) :
    (c.request m).1 = .ok (parts.map Message.withLength) ∧
      Mailbox.inbox (c.request m).2.transport = rest := by
  have hsent : c.Sent m t := ⟨hopen, hfits, hsends⟩
  have hreply : (Response.parts parts marker).WellFormed (c.outgoing m).header :=
    .parts hne hparts hmarker
  exact request_of_response hsent hreply hcut hinbox

/-- Two parts and an end marker in two datagrams, where the byte of padding behind the first part
is missing, and two of the three bytes behind the marker. -/
theorem request_of_cut_parts_unpadded :
    let header : Header := { type := 0x1a, flags := MessageFlag.multi, sequence := 5, portId := 7 }
    let a : Message := { header, payload := [1, 2, 3] }
    let b : Message := { header, payload := [4] }
    let marker : Message := { header := { header with type := MessageType.done }, payload := [0] }
    let first := (a.withLength.wire .big).take 19
    let second := b.withLength.wire .big ++ (marker.withLength.wire .big).take 18
    let other := Delivery.ofBytes [9]
    let c : Connection Script :=
      { transport := { inbox := [.ofBytes first, .ofBytes second, other] }
        sequence := 5, portId := 7, order := .big }
    let m := Message.make 0x1a MessageFlag.dump [1]
    [a, b] ≠ [] ∧ (∀ p ∈ [a, b], Reply.IsPart (c.outgoing m).header p) ∧
      Reply.IsMarker (c.outgoing m).header marker ∧
      Message.Cut .big [a, b, marker] [first, second] ∧
      (c.request m).1 = .ok [a.withLength, b.withLength] ∧
      Mailbox.inbox (c.request m).2.transport = [other] := by
  intro header a b marker first second other c m
  have hparts : ∀ p ∈ [a, b], Reply.IsPart (c.outgoing m).header p := by
    refine List.forall_mem_cons.2 ⟨?_, List.forall_mem_singleton.2 ?_⟩
    · exact ⟨⟨⟨rfl, rfl, rfl⟩, rfl⟩, by decide⟩
    · exact ⟨⟨⟨rfl, rfl, rfl⟩, rfl⟩, by decide⟩
  have hmarker : Reply.IsMarker (c.outgoing m).header marker :=
    ⟨⟨rfl, rfl, rfl⟩, rfl, by decide⟩
  have hencode (x : Message) (h : x.size < Message.sizeLimit) :
      x.encode .big = .ok (x.withLength, x.withLength.wire .big) :=
    Message.encode_eq_ok_iff.2 ⟨h, rfl, rfl⟩
  have hcut : Message.Cut .big [a, b, marker] [first, second] := by
    refine ⟨[[a], [b, marker]], rfl, .cons ?_ (.cons ?_ .nil)⟩
    · exact .last (hencode a (by decide)) (by decide)
    · exact .cons (hencode b (by decide)) (.last (hencode marker (by decide)) (by decide))
  exact ⟨by simp, hparts, hmarker, hcut, request_of_cut_parts c m rfl (by decide) rfl (by simp)
    hparts hmarker hcut rfl⟩

end GenericNetlink.Connection
