import GenericNetlink.Proofs.Session.Dialogue

/-!
Replies that come late.

A request that times out leaves its reply to come. If it comes, the next request finds it in front
of its own and fails by it, having used up one datagram (`Connection.request_of_stale`). Its own
reply is left over, so the connection has fallen behind (`Peer.Behind`), and it stays behind: a
request takes one datagram out of the inbox and puts at least one in. Each further request fails by
a message that is not its own, until the numbers come round; only if nothing of the late reply
arrives do requests get their own replies (`Peer.request_after_timeout`).
-/

namespace GenericNetlink

open Connection (Call)

/-! ### Stale deliveries -/

namespace Delivery

/-- The delivery begins with a message whose number was the next one some requests ago, and at most
as many as the age says. -/
def Stale (host : Host) (now : UInt32) (age : Nat) (d : Delivery) : Prop :=
  ∃ x batch back, d.Brings host (x :: batch) ∧ 0 < back ∧ back ≤ age ∧
    x.header.sequence + UInt32.ofNat back = now

variable {host : Host} {now : UInt32} {age : Nat} {d : Delivery}

theorem Stale.mono {age' : Nat} (h : d.Stale host now age) (hage : age ≤ age') :
    d.Stale host now age' := by
  obtain ⟨x, batch, back, hbrings, hpos, hle, hnow⟩ := h
  exact ⟨x, batch, back, hbrings, hpos, Nat.le_trans hle hage, hnow⟩

/-- One request later, everything is older by one. -/
theorem Stale.next (h : d.Stale host now age) : d.Stale host (now + 1) (age + 1) := by
  obtain ⟨x, batch, back, hbrings, -, hle, hnow⟩ := h
  refine ⟨x, batch, back + 1, hbrings, Nat.succ_pos back, Nat.succ_le_succ hle, ?_⟩
  rw [UInt32.ofNat_add, ← UInt32.add_assoc, hnow]
  rfl

/-- Before the numbers come round, a stale message does not have the next number. -/
theorem Stale.begins (h : d.Stale host now age) (hage : age < UInt32.size) :
    ∃ x batch, d.Brings host (x :: batch) ∧ x.header.sequence ≠ now := by
  obtain ⟨x, batch, back, hbrings, hpos, hle, hnow⟩ := h
  refine ⟨x, batch, hbrings, fun heq => ?_⟩
  rw [heq, UInt32.add_eq_left] at hnow
  have hback : back % UInt32.size = 0 := by
    rw [← UInt32.toNat_ofNat', hnow]; rfl
  rw [Nat.mod_eq_of_lt (Nat.lt_of_le_of_lt hle hage)] at hback
  omega

/-- The datagrams of a reply are stale once the next request comes. -/
theorem stale_of_response {r : Response} {request : Header} {datagrams : List Bytes}
    (hr : r.WellFormed request) (hcut : Message.Cut host.order r.messages datagrams) :
    ∀ b ∈ datagrams, (ofBytes b).Stale host (request.sequence + 1) 1 := by
  intro b hb
  obtain ⟨m, hm, batch, hbrings⟩ := hcut.begins b hb
  refine ⟨m.withLength, batch, 1, hbrings, Nat.one_pos, Nat.le_refl 1, ?_⟩
  rw [show m.withLength.header.sequence = m.header.sequence from rfl, hr.sequence m hm]
  rfl

end Delivery

/-! ### One request -/

namespace Connection

variable {σ : Type} [Transport σ] [Mailbox σ] {c : Connection σ} {m x : Message} {t : σ}

/-- A request that finds a message in front that is no answer to it fails by it. It uses up this
datagram and leaves the others. -/
theorem request_of_stranger {d : Delivery} {rest : Inbox} {batch : List Message} {e : Error}
    (hsent : c.Sent m t) (hinbox : Mailbox.inbox t = d :: rest)
    (hd : d.Brings c.toHost (x :: batch)) (hx : Reply.Rejected c.order (c.outgoing m).header x e) :
    (c.request m).1 = .error e ∧ Mailbox.inbox (c.request m).2.transport = rest := by
  have hfirst : d.Brings c.toHost ([] ++ x :: batch) := hd
  have hall : Mailbox.inbox t = [] ++ d :: rest := hinbox
  exact request_of_fault hsent hall Reply.unfinished_nil (.head (.rejected hfirst (by simp) hx))

/-- With a stale delivery in front there is such a message. -/
theorem request_of_stale {d : Delivery} {rest : Inbox} {age : Nat} (hsent : c.Sent m t)
    (hinbox : Mailbox.inbox t = d :: rest) (hstale : d.Stale c.toHost c.sequence age)
    (hage : age < UInt32.size) :
    (∃ x batch e, d.Brings c.toHost (x :: batch) ∧ x.header.sequence ≠ c.sequence ∧
      Reply.Rejected c.order (c.outgoing m).header x e ∧ (c.request m).1 = .error e) ∧
    Mailbox.inbox (c.request m).2.transport = rest := by
  obtain ⟨x, batch, hd, hne⟩ := hstale.begins hage
  obtain ⟨e, hx⟩ := (Reply.answers_or_rejected c.order (c.outgoing m).header x).resolve_left
    fun ha => hne ha.sequence
  obtain ⟨hresult, hrest⟩ := request_of_stranger hsent hinbox hd hx
  exact ⟨⟨x, batch, e, hd, hne, hx, hresult⟩, hrest⟩

end Connection

/-! ### Falling behind -/

namespace Peer

variable {σ : Type} [Transport σ] [Mailbox σ]

/-- A request fails by a message of an earlier one that is left over in front. It uses up the
datagram of this message, and its own reply is left over behind the rest. -/
def FailsByLeftOver (peer : Peer σ) (c : Connection σ) (m : Message) : Prop :=
  ∃ d rest x batch e own, Mailbox.inbox c.transport = d :: rest ∧
    d.Brings c.toHost (x :: batch) ∧ x.header.sequence ≠ c.sequence ∧
    Reply.Rejected c.order (c.outgoing m).header x e ∧ (c.request m).1 = .error e ∧
    Message.Cut c.order (peer.reply c.transport (c.outgoing m)).messages own ∧
    Mailbox.inbox (c.request m).2.transport = rest ++ own.map Delivery.ofBytes

/-- A connection that has fallen behind: it speaks as the other side does, it is open, the other
side answers, and something is left over, all of it stale. -/
structure Behind (peer : Peer σ) (age : Nat) (c : Connection σ) : Prop where
  speaks : c.order = peer.order
  isOpen : c.closed = false
  live : peer.live c.transport
  leftOver : Mailbox.inbox c.transport ≠ []
  stale : ∀ d ∈ Mailbox.inbox c.transport, d.Stale c.toHost c.sequence age

variable {peer : Peer σ} {c : Connection σ} {m : Message} {age : Nat}

/-- A request that fits fails by what is left over, and the connection is behind again. -/
theorem Behind.request_of_fits (h : peer.Behind age c) (hage : age < UInt32.size)
    (hfits : m.size < Message.sizeLimit) :
    peer.FailsByLeftOver c m ∧ peer.Behind (age + 1) (c.request m).2 := by
  have hsealed : (c.outgoing m).Sealed := Connection.sealed_outgoing hfits
  have hreply := peer.wellFormed h.live hsealed
  obtain ⟨t, own, hsends, hlive, hcut, hinbox⟩ := peer.send h.live hsealed
  rw [← h.speaks] at hsends hcut
  have hsent : c.Sent m t := ⟨h.isOpen, hfits, hsends⟩
  obtain ⟨d, rest, hleft⟩ := List.exists_cons_of_ne_nil h.leftOver
  obtain ⟨hd, hrest⟩ := List.forall_mem_cons.1 (hleft ▸ h.stale)
  rw [hleft, List.cons_append] at hinbox
  obtain ⟨⟨x, batch, e, hbrings, hne, hx, hresult⟩, hafter⟩ :=
    Connection.request_of_stale hsent hinbox hd hage
  refine ⟨⟨d, rest, x, batch, e, own, hleft, hbrings, hne, hx, hresult, hcut, hafter⟩, ?_⟩
  have hsequence := Connection.request_sequence_of_open h.isOpen m
  have hown : own.map Delivery.ofBytes ≠ [] := by
    simpa using hcut.ne_nil (Response.messages_ne_nil _)
  refine ⟨?_, ?_, peer.keeps.request hsent hlive, ?_, ?_⟩
  · rw [Connection.request_toHost, h.speaks]
  · rw [Connection.request_closed, h.isOpen]
  · rw [hafter]
    exact List.append_ne_nil_of_right_ne_nil rest hown
  · -- what was left over is one request older, and the reply to this request is one request old
    rw [hafter, hsequence, Connection.request_toHost]
    refine List.forall_mem_append.2 ⟨fun d hd => (hrest d hd).next, ?_⟩
    exact List.forall_mem_map.2 fun b hb =>
      (Delivery.stale_of_response hreply hcut b hb).mono (Nat.le_add_left 1 age)

/-- A connection that is behind is still behind after a request. -/
theorem Behind.request (h : peer.Behind age c) (hage : age < UInt32.size) (m : Message) :
    peer.Behind (age + 1) (c.request m).2 := by
  rcases Nat.lt_or_ge m.size Message.sizeLimit with hfits | hlong
  · exact (h.request_of_fits hage hfits).2
  · rw [Connection.request_of_tooLong h.isOpen hlong]
    exact ⟨h.speaks, h.isOpen, h.live, h.leftOver, fun d hd => (h.stale d hd).next⟩

theorem Behind.after (h : peer.Behind age c) {requests : List Message}
    (hage : age + requests.length ≤ UInt32.size) :
    peer.Behind (age + requests.length) (c.after (requests.map .request)) := by
  induction requests generalizing c age with
  | nil => exact h
  | cons m requests ih =>
    rw [List.length_cons] at hage ⊢
    rw [show age + (requests.length + 1) = age + 1 + requests.length by omega]
    exact ih (h.request (by omega) m) (by omega)

/-! ### After a timeout -/

/-- After a request that timed out the connection is the same but for its transport, in whose inbox
there is nothing but what has arrived since of the reply to the request. If nothing has, each
further request gets its own reply. If anything has, each further request fails by a message of an
earlier one, although its own reply comes at once, until the numbers come round. -/
theorem request_after_timeout (peer : Peer σ) {c₀ c₁ : Connection σ} {m₀ : Message}
    (htimeout : (c₀.request m₀).1 = .error (.receive .unavailable))
    (hclosed : c₁.closed = (c₀.request m₀).2.closed)
    (hsequence : c₁.sequence = (c₀.request m₀).2.sequence) (hspeaks : c₁.order = peer.order)
    {late : Response} {datagrams arrived : List Bytes}
    (hlate : late.WellFormed (c₀.outgoing m₀).header)
    (hcut : Message.Cut peer.order late.messages datagrams) (harrived : arrived ⊆ datagrams)
    (hlive : peer.live c₁.transport)
    (hinbox : Mailbox.inbox c₁.transport = arrived.map Delivery.ofBytes)
    (before : List Message) (m : Message) (hfits : m.size < Message.sizeLimit)
    (hround : 1 + before.length < UInt32.size) :
    let c := c₁.after (before.map .request)
    (arrived = [] →
      (c.request m).1 = (peer.reply c.transport (c.outgoing m)).outcome peer.order ∧
      Mailbox.inbox (c.request m).2.transport = []) ∧
    (arrived ≠ [] → peer.FailsByLeftOver c m) := by
  intro c
  have hopen : c₀.closed = false := by
    by_contra hshut
    rw [Connection.request_of_closed (by simpa using hshut)] at htimeout
    simp at htimeout
  rw [Connection.request_closed, hopen] at hclosed
  rw [Connection.request_sequence_of_open hopen] at hsequence
  refine ⟨fun hnone => ?_, fun hsome => ?_⟩
  · have hready : peer.Ready c₁ := ⟨hspeaks, hclosed, hlive, by rw [hinbox, hnone]; rfl⟩
    have hready : peer.Ready c := hready.after before
    obtain ⟨-, hresult, hafter⟩ := hready.request_of_fits hfits
    rw [hready.speaks] at hresult
    exact ⟨hresult, hafter.empty⟩
  · rw [← hspeaks] at hcut
    have hstale : ∀ d ∈ Mailbox.inbox c₁.transport, d.Stale c₁.toHost c₁.sequence 1 := by
      rw [hinbox, hsequence]
      exact List.forall_mem_map.2 fun b hb => Delivery.stale_of_response hlate hcut b (harrived hb)
    have hleft : Mailbox.inbox c₁.transport ≠ [] := by rw [hinbox]; simpa using hsome
    have hbehind : peer.Behind 1 c₁ := ⟨hspeaks, hclosed, hlive, hleft, hstale⟩
    exact ((hbehind.after (Nat.le_of_lt hround)).request_of_fits hround hfits).1

/-- The reply comes just after the request has timed out. Not only the next request fails, but also
the one after that. -/
theorem request_after_timeout_of_slow_reply :
    let empty : Delivery := { shown := [], taken := [], peekFault := some .unavailable }
    let start : Connection Responder :=
      { transport := { inbox := [empty], order := .little, reply := Responder.answer }
        sequence := 0xFFFFFFFF, portId := 7, order := .little }
    let m := Message.make 0x1a MessageFlag.request [1]
    (start.request m).1 = .error (.receive .unavailable) ∧
    Responder.answering.FailsByLeftOver ((start.request m).2.after ([m].map .request)) m := by
  intro empty start m
  have hfits : m.size < Message.sizeLimit := by decide
  have hsealed : (start.outgoing m).Sealed := Connection.sealed_outgoing hfits
  have hlive : Responder.answering.live start.transport := ⟨rfl, rfl, rfl⟩
  have hlate := Responder.answering.wellFormed hlive hsealed
  obtain ⟨t, own, hsends, hlive, hcut, hinbox⟩ := Responder.answering.send hlive hsealed
  have hsent : start.Sent m t := ⟨rfl, hfits, hsends⟩
  have hwaiting : Mailbox.inbox t = [] ++ empty :: own.map Delivery.ofBytes := hinbox
  obtain ⟨htimeout, hrest⟩ := Connection.request_of_fault hsent hwaiting Reply.unfinished_nil
    (.head (.unseen rfl))
  have hstill : Responder.answering.live (start.request m).2.transport :=
    Responder.answering.keeps.request hsent hlive
  obtain ⟨-, hfails⟩ := request_after_timeout Responder.answering htimeout rfl rfl
    (congrArg Host.order (start.request_toHost m)) hlate hcut
    (List.Subset.refl own) hstill hrest [m] m hfits (by decide)
  exact ⟨htimeout, hfails (hcut.ne_nil (Response.messages_ne_nil _))⟩

end Peer

namespace Connection

/-- Request 5 times out. Its reply arrives after that, and behind it the reply to request 6, which
fails by the number of the late one. So does request 7, behind whose own reply there is nothing. -/
theorem late_reply_fails_later_requests :
    let m := Message.make 0x1a MessageFlag.request [1]
    let reply (number : UInt32) := Message.ofParts 0x1a 0 number 7 [1]
    let delivery (number : UInt32) :=
      Delivery.ofBytes ([reply number].flatMap (Message.wire .little))
    let c₀ : Connection Script := { transport := {}, sequence := 5, portId := 7, order := .little }
    let c₁ : Connection Script :=
      { (c₀.request m).2 with transport := { inbox := [delivery 5, delivery 6] } }
    let c₂ : Connection Script := { (c₁.request m).2 with
      transport := { inbox := Mailbox.inbox (c₁.request m).2.transport ++ [delivery 7] } }
    (c₀.request m).1 = .error (.receive .unavailable) ∧
      (Response.plain (reply 5)).WellFormed (c₀.outgoing m).header ∧
      (Response.plain (reply 6)).WellFormed (c₁.outgoing m).header ∧
      (c₁.request m).1 = .error (.sequenceMismatch 6 5) ∧
      (Response.plain (reply 7)).WellFormed (c₂.outgoing m).header ∧
      (c₂.request m).1 = .error (.sequenceMismatch 7 6) := by
  intro m reply delivery c₀ c₁ c₂
  have hfits : m.size < Message.sizeLimit := by decide
  have hplain : Header.isMulti { flags := 0 } = false := by decide
  have hown (c : Connection Script) (hport : c.portId = 7) :
      (Response.plain (reply c.sequence)).WellFormed (c.outgoing m).header :=
    .plain ⟨⟨rfl, rfl, hport.symm⟩, rfl⟩ hplain
  -- requests 6 and 7 fail alike, each by the one message in front
  have hother {c : Connection Script} {number : UInt32} {rest : Inbox}
      (hsame : c.toHost = c₀.toHost) (hopen : c.closed = false)
      (hinbox : c.transport = { inbox := delivery number :: rest }) (hne : number ≠ c.sequence) :
      (c.request m).1 = .error (.sequenceMismatch c.sequence number) ∧
        Mailbox.inbox (c.request m).2.transport = rest := by
    have hsent : c.Sent m c.transport := ⟨hopen, hfits, by rw [hinbox]; rfl⟩
    have hbrings : (delivery number).Brings c.toHost [reply number] := by
      rw [hsame]
      exact Delivery.brings_wires (List.forall_mem_singleton.2 rfl)
    exact request_of_stranger hsent (by rw [hinbox]; rfl) hbrings (.sequence rfl hne)
  have hdry : (c₀.request m).1 = .error (.receive .unavailable) := by
    have hsent : c₀.Sent m c₀.transport := ⟨rfl, hfits, rfl⟩
    exact (request_of_fault hsent (List.nil_append _).symm Reply.unfinished_nil .dry).1
  have hsix : c₁.sequence = 6 := request_sequence_of_open (c := c₀) rfl m
  have hopen : c₁.closed = false := c₀.request_closed m
  have hsame : c₁.toHost = c₀.toHost := c₀.request_toHost m
  obtain ⟨hlate, hleft⟩ := hother hsame hopen rfl (show 5 ≠ c₁.sequence by rw [hsix]; decide)
  have hseven : c₂.sequence = 7 := by
    refine (request_sequence_of_open hopen m).trans ?_
    rw [hsix]
    rfl
  have hstill : c₂.closed = false := (c₁.request_closed m).trans hopen
  have hsame' : c₂.toHost = c₀.toHost := (c₁.request_toHost m).trans hsame
  have hbehind : c₂.transport = { inbox := [delivery 6, delivery 7] } := by
    rw [show c₂.transport = { inbox := _ ++ [delivery 7] } from rfl, hleft]
    rfl
  obtain ⟨hlater, -⟩ := hother hsame' hstill hbehind (show 6 ≠ c₂.sequence by rw [hseven]; decide)
  rw [hsix] at hlate
  rw [hseven] at hlater
  refine ⟨hdry, hown c₀ rfl, ?_, hlate, ?_, hlater⟩
  · rw [← hsix]
    exact hown c₁ (c₀.request_portId m)
  · rw [← hseven]
    exact hown c₂ ((c₁.request_portId m).trans (c₀.request_portId m))

end Connection

end GenericNetlink
