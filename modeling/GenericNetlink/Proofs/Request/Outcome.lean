import GenericNetlink.Proofs.Request.Basic

/-!
What comes of a request, exactly.

The pair `request_eq_ok_iff` and `request_eq_error_iff` describes the two kinds of outcome by the
datagrams that wait once the request has been sent: a complete reply, the shortest one at the head
of the queue, is handed over, and whatever else is there fails the request with the first fault in
the order of arrival. Both say what is left in the queue.
-/

namespace GenericNetlink.Connection

variable {σ : Type} [Transport σ] [Mailbox σ]

/-- A request gives messages exactly if the queue begins with a complete reply that is more than
bare end markers. They are all messages of the reply in order, without the end marker behind
others, and the datagrams behind the reply are left. -/
theorem request_eq_ok_iff (c : Connection σ) (m : Message) {t : σ} (hopen : c.closed = false)
    (hfits : m.size < Message.sizeLimit)
    (hsends : Transport.send (c.datagram m) c.transport = (.ok (), t))
    (replies : List Message) (rest : Inbox) :
    ((c.request m).1 = .ok replies ∧ Mailbox.inbox (c.request m).2.transport = rest) ↔
      ∃ early batches last final, Mailbox.inbox t = early ++ last :: rest ∧
        Reply.Complete c.toHost (c.outgoing m).header early batches last final ∧
        ¬ Reply.OnlyMarkers (batches.flatten ++ final) ∧
        Reply.HandsOver (batches.flatten ++ final) replies := by
  have hsent : c.Sent m t := ⟨hopen, hfits, hsends⟩
  constructor
  · rintro ⟨hok, rfl⟩
    rcases hsent.complete_or_fault with
      ⟨early, batches, last, final, hi, hc, hr⟩ | ⟨_, _, _, e, -, -, -, hr, -⟩
    · exact ⟨early, batches, last, final, hi, hc, Reply.finish_eq_ok_iff.1 (hr.symm.trans hok)⟩
    · exact absurd (hr.symm.trans hok) (by simp)
  · rintro ⟨early, batches, last, final, hi, hc, hfinish⟩
    obtain ⟨hr, hl⟩ := request_of_complete hsent hi hc
    exact ⟨hr.trans (Reply.finish_eq_ok_iff.2 hfinish), hl⟩

/-- Two parts and an end marker in two datagrams give the two parts, and a third datagram stays. -/
theorem request_eq_ok_of_two_datagrams :
    let a := Message.ofParts 0x1a MessageFlag.multi 5 7 [1, 2, 3]
    let b := Message.ofParts 0x1a MessageFlag.multi 5 7 []
    let marker := Message.ofParts MessageType.done MessageFlag.multi 5 7 [0, 0, 0, 0]
    let first := Delivery.ofBytes ([a].flatMap (Message.wire .little))
    let second := Delivery.ofBytes ([b, marker].flatMap (Message.wire .little))
    let other := Delivery.ofBytes [9]
    let c : Connection Script :=
      { transport := { inbox := [first, second, other] }, sequence := 5, portId := 7
        order := .little }
    let m := Message.make 0x1a MessageFlag.dump [1]
    c.closed = false ∧ m.size < Message.sizeLimit ∧
      Transport.send (c.datagram m) c.transport = (.ok (), c.transport) ∧
      (c.request m).1 = .ok [a, b] ∧ Mailbox.inbox (c.request m).2.transport = [other] := by
  intro a b marker first second other c m
  have hcomplete : Reply.Complete c.toHost (c.outgoing m).header [first] [[a]] second [b, marker] :=
    { brings := .cons (Delivery.brings_wires (by decide)) .nil
      answers := by decide
      goesOn := by decide
      lastBrings := Delivery.brings_wires (by decide)
      lastAnswers := by decide
      ends := by decide }
  refine ⟨rfl, by decide, rfl, ?_⟩
  refine (request_eq_ok_iff c m rfl (by decide) rfl [a, b] [other]).2
    ⟨[first], [[a]], second, [b, marker], rfl, hcomplete, ?_, Or.inl ⟨by simp, marker, rfl, rfl⟩⟩
  rintro (⟨d, h, -⟩ | ⟨d, e, h, -⟩) <;> simp at h

/-- A closed connection refuses every request and stays as it is. Where sending fails, the transport
stays as that has left it: nothing is peeked at or received. Otherwise a request fails exactly if
the queue begins with a reply of bare end markers, or with datagrams that leave the reply unfinished
and then the first fault, which is used up. -/
theorem request_eq_error_iff (c : Connection σ) (m : Message) (hfits : m.size < Message.sizeLimit) :
    (c.closed = true → c.request m = (.error .connectionClosed, c)) ∧
    (c.closed = false → ∀ e t, Transport.send (c.datagram m) c.transport = (.error e, t) →
      c.request m = (.error (.send e), { c with sequence := c.sequence + 1, transport := t })) ∧
    (c.closed = false → ∀ t, Transport.send (c.datagram m) c.transport = (.ok (), t) → ∀ e rest,
      ((c.request m).1 = .error e ∧ Mailbox.inbox (c.request m).2.transport = rest) ↔
        (∃ early batches last final, Mailbox.inbox t = early ++ last :: rest ∧
          Reply.Complete c.toHost (c.outgoing m).header early batches last final ∧
          Reply.OnlyMarkers (batches.flatten ++ final) ∧ e = .unexpectedDone) ∨
        (∃ early batches late, Mailbox.inbox t = early ++ late ∧
          Reply.Unfinished c.toHost (c.outgoing m).header early batches ∧
          Reply.FirstFault c.toHost (c.outgoing m).header late e ∧ rest = late.tail)) := by
  refine ⟨request_of_closed, fun hopen e t hsend => request_of_unsent hopen hfits hsend,
    fun hopen t hsends e rest => ?_⟩
  have hsent : c.Sent m t := ⟨hopen, hfits, hsends⟩
  constructor
  · rintro ⟨herr, rfl⟩
    rcases hsent.complete_or_fault with
      ⟨early, batches, last, final, hi, hc, hr⟩ | ⟨early, batches, late, e', hi, hu, hf, hr, hl⟩
    · obtain ⟨hm, rfl⟩ := Reply.finish_eq_error_iff.1 (hr.symm.trans herr)
      exact Or.inl ⟨early, batches, last, final, hi, hc, hm, rfl⟩
    · obtain rfl := Except.error.inj (hr.symm.trans herr)
      exact Or.inr ⟨early, batches, late, hi, hu, hf, hl⟩
  · rintro (⟨early, batches, last, final, hi, hc, hm, rfl⟩ |
      ⟨early, batches, late, hi, hu, hf, rfl⟩)
    · obtain ⟨hr, hl⟩ := request_of_complete hsent hi hc
      exact ⟨hr.trans (Reply.finish_eq_error_iff.2 ⟨hm, rfl⟩), hl⟩
    · exact request_of_fault hsent hi hu hf

/-- A closed connection, a transport that cannot send, and two datagrams with two faults each. In
one, a header that promises too much is behind a message of an earlier request. The datagram does
not parse, so that message is never looked at. In the other, an error record of that request is in
front of the message, and says that there is no such thing. -/
theorem request_eq_error_of_two_faults :
    let stale := Message.ofParts 0x1a 0 4 7 []
    let cut := { stale with header := { stale.header with length := 64 } }
    let record := Message.ofParts MessageType.error 0 4 7 [0xfe, 0xff, 0xff, 0xff]
    let garbled := Delivery.ofBytes (stale.wire .little ++ cut.wire .little)
    let refusal := Delivery.ofBytes ([record, stale].flatMap (Message.wire .little))
    let m := Message.make 0x1a MessageFlag.request [1]
    let link (s : Script) : Connection (Logged Script) :=
      { transport := { inner := s }, sequence := 5, portId := 7, order := .little }
    let shut := { link {} with closed := true }
    let stuck := link { sendFault := some .timedOut }
    let c := link { inbox := [garbled, refusal] }
    let later := link { inbox := [refusal] }
    m.size < Message.sizeLimit ∧ shut.closed = true ∧ stuck.closed = false ∧ c.closed = false ∧
      shut.request m = (.error .connectionClosed, shut) ∧
      (stuck.request m).1 = .error (.send .timedOut) ∧
      (stuck.request m).2.transport.events = [.unsent (stuck.datagram m)] ∧
      (c.request m).1 = .error (.malformedMessage (.badLength 64 16)) ∧
      Mailbox.inbox (c.request m).2.transport = [refusal] ∧
      (later.request m).1 =
        .error (.kernel .noEntry "No such file or directory (os error 2)") ∧
      Mailbox.inbox (later.request m).2.transport = [] := by
  intro stale cut record garbled refusal m link shut stuck c later
  have hfits : m.size < Message.sizeLimit := by decide
  have hcut : (Message.format .little).decode (cut.wire .little) =
      .error (.malformedMessage (.badLength 64 16)) := by decide
  have hparse : Message.decodeAll .little (garbled.received c.page).padded =
      .error (.malformedMessage (.badLength 64 16)) := by
    rw [Delivery.received_ofBytes, Bytes.padded_of_mod (by decide),
      Message.decodeAll_wire_append .little (by decide), Message.decodeAll,
      (Message.format .little).collect_of_decode_error (by decide) hcut]
    rfl
  have hbrings : refusal.Brings later.toHost ([] ++ record :: [stale]) :=
    Delivery.brings_wires (by decide)
  have hrejected : Reply.Rejected .little (later.outgoing m).header record (.ofErrno (-2) none) :=
    .record (m := record) rfl (by decide) rfl
  have hstuck := (request_eq_error_iff stuck m hfits).2.1 rfl .timedOut _ rfl
  have hc := ((request_eq_error_iff c m hfits).2.2 rfl _ rfl _ [refusal]).2
    (Or.inr ⟨[], [], [garbled, refusal], rfl, Reply.unfinished_nil,
      .head (.malformed rfl rfl hparse), rfl⟩)
  have hlater := ((request_eq_error_iff later m hfits).2.2 rfl _ rfl _ []).2
    (Or.inr ⟨[], [], [refusal], rfl, Reply.unfinished_nil,
      .head (.rejected hbrings (by simp) hrejected), rfl⟩)
  refine ⟨hfits, rfl, rfl, rfl, (request_eq_error_iff shut m hfits).1 rfl, ?_, ?_, hc.1, hc.2,
    ?_, hlater.2⟩
  · rw [hstuck]
  · rw [hstuck]; rfl
  · rw [hlater.1]
    decide

end GenericNetlink.Connection
