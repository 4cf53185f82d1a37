import GenericNetlink.Proofs.Reading

/-!
The course of a request, one equation for each way it can take.

A closed connection refuses it, a message too long for its length field or a transport that fails
to send ends it, and otherwise it gives what is read off the inbox (`request_view_of_sent`): the
messages of a complete reply (`request_of_complete`) or the first fault (`request_of_fault`).
-/

namespace GenericNetlink.Connection

variable {σ : Type}

/-- The request as it goes out: stamped, and with its length set. -/
def outgoing (c : Connection σ) (m : Message) : Message :=
  { c.stamp m with header := { (c.stamp m).header with length := UInt32.ofNat m.size } }

/-- The bytes of the request as it goes out. -/
def datagram (c : Connection σ) (m : Message) : Bytes := (c.outgoing m).wire c.order

@[simp] theorem outgoing_sequence (c : Connection σ) (m : Message) :
    (c.outgoing m).header.sequence = c.sequence := rfl

@[simp] theorem outgoing_portId (c : Connection σ) (m : Message) :
    (c.outgoing m).header.portId = if m.header.portId = 0 then c.portId else m.header.portId := rfl

theorem encode_stamp {c : Connection σ} {m : Message} (h : m.size < Message.sizeLimit) :
    (c.stamp m).encode c.order = .ok (c.outgoing m, c.datagram m) := by
  have hs : (c.stamp m).sealed = .ok (c.outgoing m) := Message.sealed_eq_ok_iff.2 ⟨h, rfl⟩
  rw [Message.encode, hs]; rfl

theorem encode_stamp_of_le {c : Connection σ} {m : Message} (h : Message.sizeLimit ≤ m.size) :
    (c.stamp m).encode c.order = .error (.malformedMessage (.tooLong m.size)) := by
  have hs : (c.stamp m).sealed = .error (.malformedMessage (.tooLong m.size)) :=
    if_neg (Nat.not_lt.2 h)
  rw [Message.encode, hs]; rfl

variable [Transport σ]

/-- The request goes out: the connection is open, the length field can say the length of the
request, and the transport, which is then in the given state, sends it. -/
structure Sent (c : Connection σ) (m : Message) (t : σ) : Prop where
  isOpen : c.closed = false
  fits : m.size < Message.sizeLimit
  sends : Transport.send (c.datagram m) c.transport = (.ok (), t)

variable {c : Connection σ} {m : Message} {t : σ}

theorem request_of_closed (h : c.closed = true) : c.request m = (.error .connectionClosed, c) := by
  rw [request, if_pos h]

theorem request_of_tooLong (hopen : c.closed = false) (h : Message.sizeLimit ≤ m.size) :
    c.request m =
      (.error (.malformedMessage (.tooLong m.size)), { c with sequence := c.sequence + 1 }) := by
  rw [request, if_neg (by simp [hopen]), encode_stamp_of_le h]

theorem request_of_unsent {e : Errno} (hopen : c.closed = false)
    (hfits : m.size < Message.sizeLimit)
    (hsend : Transport.send (c.datagram m) c.transport = (.error e, t)) :
    c.request m = (.error (.send e), { c with sequence := c.sequence + 1, transport := t }) := by
  rw [request, if_neg (by simp [hopen]), encode_stamp hfits]
  simp only [hsend]

theorem request_of_sent (h : c.Sent m t) :
    c.request m = ((receiveReply c.toHost (c.outgoing m).header t).1,
      { c with
        sequence := c.sequence + 1
        transport := (receiveReply c.toHost (c.outgoing m).header t).2 }) := by
  rw [request, if_neg (by simp [h.isOpen]), encode_stamp h.fits]
  simp only [h.sends]

/-- A request goes out, or it fails for a reason that has nothing to do with what is received. -/
theorem sent_or_error (c : Connection σ) (m : Message) :
    (∃ t, c.Sent m t) ∨ ∃ e, (c.request m).1 = .error e ∧
      (e = .connectionClosed ∨ e = .malformedMessage (.tooLong m.size) ∨
        ∃ errno, e = .send errno) := by
  cases hclosed : c.closed with
  | true => exact Or.inr ⟨_, by rw [request_of_closed hclosed], Or.inl rfl⟩
  | false =>
    rcases Nat.lt_or_ge m.size Message.sizeLimit with hfits | hlong
    · rcases hs : Transport.send (c.datagram m) c.transport with ⟨e | _, t⟩
      · exact Or.inr ⟨_, by rw [request_of_unsent hclosed hfits hs], Or.inr (Or.inr ⟨e, rfl⟩)⟩
      · exact Or.inl ⟨t, hclosed, hfits, hs⟩
    · exact Or.inr ⟨_, by rw [request_of_tooLong hclosed hlong], Or.inr (Or.inl rfl)⟩

/-! ### Over a mailbox -/

variable [Mailbox σ]

/-- Once it has been sent, a request gives what is read off the inbox, trimmed, and leaves the
rest of the inbox. -/
theorem request_view_of_sent (h : c.Sent m t) :
    ((c.request m).1, Mailbox.inbox (c.request m).2.transport) =
      (((Mailbox.inbox t).collect c.toHost (c.outgoing m).header).1.bind Reply.finish,
        ((Mailbox.inbox t).collect c.toHost (c.outgoing m).header).2) := by
  rw [request_of_sent h, ← Mailbox.collect_view]; rfl

/-- A complete reply at the head of the inbox is trimmed and handed over. -/
theorem request_of_complete {early : List Delivery} {batches : List (List Message)}
    {last : Delivery} {final : List Message} {rest : Inbox} (hsent : c.Sent m t)
    (hi : Mailbox.inbox t = early ++ last :: rest)
    (h : Reply.Complete c.toHost (c.outgoing m).header early batches last final) :
    (c.request m).1 = Reply.finish (batches.flatten ++ final) ∧
      Mailbox.inbox (c.request m).2.transport = rest := by
  have hview := request_view_of_sent hsent
  rw [hi, Inbox.collect_of_complete h] at hview
  exact Prod.mk.inj hview

/-- A fault behind deliveries that leave the reply unfinished fails the request. -/
theorem request_of_fault {early : List Delivery} {batches : List (List Message)} {late : Inbox}
    {e : Error} (hsent : c.Sent m t) (hi : Mailbox.inbox t = early ++ late)
    (h : Reply.Unfinished c.toHost (c.outgoing m).header early batches)
    (hf : Reply.FirstFault c.toHost (c.outgoing m).header late e) :
    (c.request m).1 = .error e ∧ Mailbox.inbox (c.request m).2.transport = late.tail := by
  have hview := request_view_of_sent hsent
  rw [hi, Inbox.collect_of_unfinished h hf] at hview
  exact Prod.mk.inj hview

/-- Once it has been sent, a request takes one of the two courses. -/
theorem Sent.complete_or_fault (h : c.Sent m t) :
    (∃ early batches last final,
      Mailbox.inbox t = early ++ last :: Mailbox.inbox (c.request m).2.transport ∧
      Reply.Complete c.toHost (c.outgoing m).header early batches last final ∧
      (c.request m).1 = Reply.finish (batches.flatten ++ final)) ∨
    ∃ early batches late e, Mailbox.inbox t = early ++ late ∧
      Reply.Unfinished c.toHost (c.outgoing m).header early batches ∧
      Reply.FirstFault c.toHost (c.outgoing m).header late e ∧ (c.request m).1 = .error e ∧
      Mailbox.inbox (c.request m).2.transport = late.tail := by
  rcases Reply.complete_or_fault c.toHost (c.outgoing m).header (Mailbox.inbox t) with
    ⟨early, batches, last, final, rest, hi, hc⟩ | ⟨early, batches, late, e, hi, hu, hf⟩
  · obtain ⟨hr, rfl⟩ := request_of_complete h hi hc
    exact Or.inl ⟨early, batches, last, final, hi, hc, hr⟩
  · obtain ⟨hr, hl⟩ := request_of_fault h hi hu hf
    exact Or.inr ⟨early, batches, late, e, hi, hu, hf, hr, hl⟩

/-- A successful request has gone out, and what it gives is handed over of a complete reply. -/
theorem exists_complete_of_ok {replies : List Message} (h : (c.request m).1 = .ok replies) :
    ∃ t early batches last final, c.Sent m t ∧
      Mailbox.inbox t = early ++ last :: Mailbox.inbox (c.request m).2.transport ∧
      Reply.Complete c.toHost (c.outgoing m).header early batches last final ∧
      Reply.HandsOver (batches.flatten ++ final) replies := by
  rcases sent_or_error c m with ⟨t, hsent⟩ | ⟨e, hr, -⟩
  · rcases hsent.complete_or_fault with
      ⟨early, batches, last, final, hi, hc, hr⟩ | ⟨_, _, _, e, -, -, -, hr, -⟩
    · exact ⟨t, early, batches, last, final, hsent, hi, hc,
        (Reply.finish_eq_ok_iff.1 (hr.symm.trans h)).2⟩
    · exact absurd (hr.symm.trans h) (by simp)
  · exact absurd (hr.symm.trans h) (by simp)

end GenericNetlink.Connection
