import GenericNetlink.Proofs.Receiving
import GenericNetlink.Proofs.Response
import GenericNetlink.Proofs.Session.Basic

/-!
Dialogues: sessions with another side that answers.

A `Peer` answers each request that is sent with one well formed reply to it. Then a connection whose
inbox is empty has an empty inbox again after each request, be its outcome good or bad
(`Peer.Ready.request`), so in a whole run of requests each one gets its own reply
(`Peer.request_gets_own_reply`). Such a side exists for whatever replies there are to be
(`Responder.peer`).
-/

namespace GenericNetlink

open Connection (Call)

/-- The other side of a transport that answers, as it shows on this side: the byte order that it
speaks in, the states of the transport in which it answers, and the reply to a request that is sent
in one of them. Receiving does not stop it from answering. The reply is well formed and carries the
numbers of the request. It is sent at once, somehow cut into datagrams, and waits behind what is in
the inbox. -/
structure Peer (σ : Type) [Transport σ] [Mailbox σ] where
  order : ByteOrder
  live : σ → Prop
  reply : σ → Message → Response
  keeps : Transport.Keeps live
  wellFormed {s : σ} {request : Message} : live s → request.Sealed →
    (reply s request).WellFormed request.header
  send {s : σ} {request : Message} : live s → request.Sealed → ∃ t datagrams,
    Transport.send (request.wire order) s = (.ok (), t) ∧ live t ∧
    Message.Cut order (reply s request).messages datagrams ∧
    Mailbox.inbox t = Mailbox.inbox s ++ datagrams.map Delivery.ofBytes

namespace Peer

variable {σ : Type} [Transport σ] [Mailbox σ] (peer : Peer σ)

/-- A connection between two requests: it speaks as the other side does, it is open, the other side
answers, and nothing is left over in the inbox. -/
structure Ready (c : Connection σ) : Prop where
  speaks : c.order = peer.order
  isOpen : c.closed = false
  live : peer.live c.transport
  empty : Mailbox.inbox c.transport = []

variable {peer} {c : Connection σ} {m : Message}

/-- A request that fits goes out, finds its own reply and nothing else in the inbox, and leaves
nothing there. -/
theorem Ready.request_of_fits (h : peer.Ready c) (hfits : m.size < Message.sizeLimit) :
    (∃ t datagrams, c.Sent m t ∧
      Message.Cut c.order (peer.reply c.transport (c.outgoing m)).messages datagrams ∧
      Mailbox.inbox t = datagrams.map Delivery.ofBytes) ∧
    (c.request m).1 = (peer.reply c.transport (c.outgoing m)).outcome c.order ∧
    peer.Ready (c.request m).2 := by
  have hsealed : (c.outgoing m).Sealed := Connection.sealed_outgoing hfits
  obtain ⟨t, datagrams, hsends, hlive, hcut, hinbox⟩ := peer.send h.live hsealed
  rw [← h.speaks] at hsends hcut
  rw [h.empty, List.nil_append] at hinbox
  have hsent : c.Sent m t := ⟨h.isOpen, hfits, hsends⟩
  have halone : Mailbox.inbox t = datagrams.map Delivery.ofBytes ++ [] := by
    rw [hinbox, List.append_nil]
  obtain ⟨hresult, hrest⟩ :=
    Connection.request_of_response hsent (peer.wellFormed h.live hsealed) hcut halone
  refine ⟨⟨t, datagrams, hsent, hcut, hinbox⟩, hresult, ?_, ?_, peer.keeps.request hsent hlive,
    hrest⟩
  · rw [Connection.request_toHost, h.speaks]
  · rw [Connection.request_closed, h.isOpen]

/-- Between two requests a connection is ready again. -/
theorem Ready.request (h : peer.Ready c) (m : Message) : peer.Ready (c.request m).2 := by
  rcases Nat.lt_or_ge m.size Message.sizeLimit with hfits | hlong
  · exact (h.request_of_fits hfits).2.2
  · rw [Connection.request_of_tooLong h.isOpen hlong]
    exact ⟨h.speaks, h.isOpen, h.live, h.empty⟩

theorem Ready.after (h : peer.Ready c) (requests : List Message) :
    peer.Ready (c.after (requests.map .request)) := by
  induction requests generalizing c with
  | nil => exact h
  | cons m requests ih => exact ih (h.request m)

end Peer

/-! ### A side that answers -/

/-- A transport in memory on whose other side each request is answered at once, in as many datagrams
as the reply has messages. The other side speaks in some byte order and knows the reply to each
request. -/
structure Responder extends Script where
  order : ByteOrder
  reply : Message → Response

namespace Responder

/-- A datagram for each message. -/
def datagrams (order : ByteOrder) (messages : List Message) : List Bytes :=
  messages.map fun m => m.withLength.wire order

/-- Sends as the script says, and has the reply put behind what is in the inbox. Bytes that are no
request have none. -/
def send (datagram : Bytes) (s : Responder) : Except Errno Unit × Responder :=
  match s.sendFault, Message.decode s.order datagram with
  | some e, _ => (.error e, s)
  | none, .error _ => (.ok (), s)
  | none, .ok request =>
    let answer := (datagrams s.order (s.reply request).messages).map Delivery.ofBytes
    (.ok (), { s with inbox := s.inbox ++ answer })

/-- Makes a call that the script answers. -/
def call {α : Type} (f : Script → Except Errno α × Script) (s : Responder) :
    Except Errno α × Responder :=
  let (result, script) := f s.toScript
  (result, { s with toScript := script })

instance : Transport Responder where
  send := send
  peek size := call (Transport.peek size)
  receive size := call (Transport.receive size)
  close := call Transport.close
  waiting s := Transport.waiting s.toScript
  nextSize s := Transport.nextSize s.toScript
  peek_ok {size s t shown} h := by
    have result : (Transport.peek size s.toScript).1 = .ok shown := congrArg Prod.fst h
    have state : t.toScript = (Transport.peek size s.toScript).2 :=
      (congrArg (·.2.toScript) h).symm
    exact state ▸ Transport.peek_ok (Prod.ext result rfl)
  receive_ok {size s t taken} h := by
    have result : (Transport.receive size s.toScript).1 = .ok taken := congrArg Prod.fst h
    have state : t.toScript = (Transport.receive size s.toScript).2 :=
      (congrArg (·.2.toScript) h).symm
    exact state ▸ Transport.receive_ok (Prod.ext result rfl)

instance : Mailbox Responder where
  inbox s := s.inbox
  peek_view _ _ := rfl
  receive_view _ _ := rfl

theorem cut_datagrams (order : ByteOrder) {messages : List Message}
    (h : ∀ m ∈ messages, m.size < Message.sizeLimit) :
    Message.Cut order messages (datagrams order messages) := by
  refine ⟨messages.map fun m => [m], by rw [← List.flatMap_def, List.flatMap_singleton'], ?_⟩
  rw [datagrams, List.forall₂_map_left_iff, List.forall₂_map_right_iff, List.forall₂_same]
  intro m hm
  have hfits := h m hm
  have hwhole : (m.withLength.wire order).take m.wireSize = m.withLength.wire order :=
    List.take_of_length_le (Nat.le_of_eq (Message.length_wire order m.withLength))
  exact hwhole ▸ .last (Message.encode_eq_ok_iff.2 ⟨hfits, rfl, rfl⟩) (le_wordAlign m.size)

/-- The other side of a responder that gives well formed replies of messages that fit. -/
def peer (order : ByteOrder) (reply : Message → Response)
    (hreply : ∀ request, (reply request).WellFormed request.header)
    (hfits : ∀ request, ∀ m ∈ (reply request).messages, m.size < Message.sizeLimit) :
    Peer Responder where
  order
  live s := s.sendFault = none ∧ s.order = order ∧ s.reply = reply
  reply _ := reply
  keeps := ⟨fun _ _ h => h, fun _ _ h => h⟩
  wellFormed _ _ := hreply _
  send {s request} h hsealed := by
    obtain ⟨hsends, horder, hs⟩ := h
    have hread : Message.decode order (request.wire order) = .ok request :=
      Message.decode_wire hsealed
    let answer := (datagrams order (reply request).messages).map Delivery.ofBytes
    refine ⟨{ s with inbox := s.inbox ++ answer }, _, ?_, ⟨hsends, horder, hs⟩,
      cut_datagrams order (hfits request), rfl⟩
    show send _ s = _
    rw [send, horder, hread, hsends, hs]

/-- A reply of each kind: a record that there is no such thing if nothing is asked for, one message
if one thing is, and a message for each of the first two things if more are. -/
def answer (request : Message) : Response :=
  let data : Header :=
    { type := 0x1a, sequence := request.header.sequence, portId := request.header.portId }
  let part : Header := { data with flags := MessageFlag.multi }
  match request.payload with
  | [] => .failure [] ⟨{ data with type := MessageType.error }, [0xfe, 0xff, 0xff, 0xff]⟩
  | [a] => .plain ⟨data, [a]⟩
  | a :: b :: _ => .parts [⟨part, [a]⟩, ⟨part, [b]⟩] ⟨{ part with type := MessageType.done }, []⟩

theorem answer_wellFormed (request : Message) : (answer request).WellFormed request.header := by
  have hplain : Header.isMulti { flags := 0 } = false := by decide
  have hmulti : Header.isMulti { flags := MessageFlag.multi } = true := by decide
  unfold answer
  split
  · exact .failure (by simp) ⟨rfl, rfl, rfl, Nat.le_refl 4⟩
  · exact .plain ⟨⟨rfl, rfl, rfl⟩, rfl⟩ hplain
  · refine .parts (by simp) (List.forall_mem_cons.2 ⟨?_, List.forall_mem_singleton.2 ?_⟩) ?_
    · exact ⟨⟨⟨rfl, rfl, rfl⟩, rfl⟩, hmulti⟩
    · exact ⟨⟨⟨rfl, rfl, rfl⟩, rfl⟩, hmulti⟩
    · exact ⟨⟨rfl, rfl, rfl⟩, rfl, hmulti⟩

theorem answer_fits (request : Message) :
    ∀ m ∈ (answer request).messages, m.size < Message.sizeLimit := by
  unfold answer
  split <;> simp [Response.messages, Message.size, Header.size, Message.sizeLimit, UInt32.size]

/-- The other side of a responder that answers so. -/
def answering : Peer Responder := peer .little answer answer_wellFormed answer_fits

end Responder

/-! ### Runs of requests -/

namespace Peer

variable {σ : Type} [Transport σ] [Mailbox σ] {peer : Peer σ}

/-- After any run of requests, from whichever callers they come and whatever came of them, the next
one carries the number that comes after as many numbers, finds exactly its own reply in the inbox,
and gives the data of this reply, or the error of its record. If it is too long to be sent it fails
for that. The inbox is empty before and after it. -/
theorem request_gets_own_reply {start : Connection σ} (hstart : peer.Ready start)
    (before : List Message) (m : Message) :
    let c := start.after (before.map .request)
    let request := c.outgoing m
    let reply := peer.reply c.transport request
    (m.size < Message.sizeLimit →
      request.header.sequence = start.sequence + UInt32.ofNat before.length ∧
      request.header.portId = (if m.header.portId = 0 then start.portId else m.header.portId) ∧
      reply.WellFormed request.header ∧
      (∃ t datagrams, c.Sent m t ∧ Message.Cut start.order reply.messages datagrams ∧
        Mailbox.inbox t = datagrams.map Delivery.ofBytes) ∧
      (c.request m).1 = reply.outcome start.order) ∧
    (Message.sizeLimit ≤ m.size →
      (c.request m).1 = .error (.malformedMessage (.tooLong m.size))) ∧
    Mailbox.inbox c.transport = [] ∧ Mailbox.inbox (c.request m).2.transport = [] := by
  intro c request reply
  have hready : peer.Ready c := hstart.after before
  have hsame : c.order = start.order := hready.speaks.trans hstart.speaks.symm
  refine ⟨fun hfits => ?_, fun hlong => ?_, hready.empty, (hready.request m).empty⟩
  · obtain ⟨hsent, hresult, -⟩ := hready.request_of_fits hfits
    rw [hsame] at hsent hresult
    refine ⟨?_, ?_, ?_, hsent, hresult⟩
    · exact Connection.after_requests_sequence hstart.isOpen before
    · rw [Connection.outgoing_portId, show c.portId = start.portId from start.after_portId _]
    · exact peer.wellFormed hready.live (Connection.sealed_outgoing hfits)
  · rw [Connection.request_of_tooLong hready.isOpen hlong]

/-- Three requests, of which the number of the first is the last one there is and the third names
its port: the first gets two parts, the second the error of its record, the third one message. -/
theorem request_gets_own_reply_past_wrap :
    let start : Connection Responder :=
      { transport := { order := .little, reply := Responder.answer }
        sequence := 0xFFFFFFFF, portId := 7, order := .little }
    let dump := Message.make 0x1a MessageFlag.dump [1, 2]
    let nothing := Message.make 0x1a MessageFlag.request []
    let one : Message := { header := { type := 0x1a, portId := 9 }, payload := [3] }
    Responder.answering.Ready start ∧
    (start.request dump).1 = .ok
      [.ofParts 0x1a MessageFlag.multi 0xFFFFFFFF 7 [1],
        .ofParts 0x1a MessageFlag.multi 0xFFFFFFFF 7 [2]] ∧
    ((start.after ([dump].map .request)).request nothing).1 = .error (.ofErrno (-2) none) ∧
    ((start.after ([dump, nothing].map .request)).request one).1 = .ok [.ofParts 0x1a 0 1 9 [3]] ∧
    Mailbox.inbox ((start.after ([dump, nothing].map .request)).request one).2.transport = [] := by
  intro start dump nothing one
  have hstart : Responder.answering.Ready start := ⟨rfl, rfl, ⟨rfl, rfl, rfl⟩, rfl⟩
  obtain ⟨hdump, -⟩ := request_gets_own_reply hstart [] dump
  obtain ⟨hnothing, -⟩ := request_gets_own_reply hstart [dump] nothing
  obtain ⟨hone, -, -, hempty⟩ := request_gets_own_reply hstart [dump, nothing] one
  obtain ⟨-, -, -, -, hfirst⟩ := hdump (by decide)
  obtain ⟨-, -, -, -, hsecond⟩ := hnothing (by decide)
  obtain ⟨hsequence, hport, -, -, hthird⟩ := hone (by decide)
  refine ⟨hstart, hfirst.trans ?_, hsecond.trans ?_, hthird.trans ?_, hempty⟩
  · rfl
  · rfl
  · have hnumber : (0xFFFFFFFF : UInt32) + UInt32.ofNat 2 = 1 := by decide
    have hgives (request : Message) (h : request.payload = [3]) :
        (Responder.answer request).outcome .little =
          .ok [.ofParts 0x1a 0 request.header.sequence request.header.portId [3]] := by
      simp only [Responder.answer, h]
      rfl
    exact (hgives _ rfl).trans (by rw [hsequence.trans hnumber, hport.trans (if_neg (by decide))])

end Peer

end GenericNetlink
