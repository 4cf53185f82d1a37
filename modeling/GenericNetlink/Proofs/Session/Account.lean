import GenericNetlink.Proofs.Receiving
import GenericNetlink.Proofs.Session.Basic
import GenericNetlink.Transport.Logged
import GenericNetlink.Transport.Script

/-!
The account of a session: what a connection has done on its transport.

The transport remembers the calls on it. A request on an open connection is one attempt to send,
and looks for the reply if that succeeds (`request_events`); behind the first closing call nothing
but further closing is done (`events_of_closed`). Together with the sequence number and the closed
flag this is `session_account`, which holds whatever the transport does.
-/

namespace GenericNetlink

/-- Whether the call looks for what waits: it is a peek or a receive. -/
def Event.isLook : Event → Bool
  | .peeked _ | .received _ => true
  | .sent _ | .unsent _ | .closed => false

namespace Connection

variable {σ : Type} [Transport σ]

/-- Sending is remembered with its result. -/
theorem send_logged (datagram : Bytes) (s : Logged σ) :
    Transport.send datagram s = ((Transport.send datagram s.inner).1,
      { inner := (Transport.send datagram s.inner).2
        events := s.events ++
          [Logged.sending datagram (Transport.send datagram s.inner).1] }) := rfl

/-- Peeking and receiving add looks to the calls that are remembered, and nothing else. -/
theorem keeps_looks (before : List Event) :
    Transport.Keeps fun s : Logged σ =>
      ∃ looks, s.events = before ++ looks ∧ ∀ e ∈ looks, e.isLook = true where
  peek size s := by
    rintro ⟨looks, hs, hlooks⟩
    refine ⟨looks ++ [.peeked size], ?_, ?_⟩
    · rw [← List.append_assoc, ← hs]; rfl
    · exact List.forall_mem_append.2 ⟨hlooks, by simp [Event.isLook]⟩
  receive size s := by
    rintro ⟨looks, hs, hlooks⟩
    refine ⟨looks ++ [.received size], ?_, ?_⟩
    · rw [← List.append_assoc, ← hs]; rfl
    · exact List.forall_mem_append.2 ⟨hlooks, by simp [Event.isLook]⟩

variable {c : Connection (Logged σ)} {m : Message}

/-- A request on an open connection is one attempt to send, and then looks; none are taken if the
attempt fails. -/
theorem request_events (hopen : c.closed = false) (hfits : m.size < Message.sizeLimit) :
    ∃ result looks, (Transport.send (c.datagram m) c.transport.inner).1 = result ∧
      (c.request m).2.transport.events =
        c.transport.events ++ Logged.sending (c.datagram m) result :: looks ∧
      (∀ e ∈ looks, e.isLook = true) ∧ (∀ e, result = .error e → looks = []) := by
  have hsend := send_logged (c.datagram m) c.transport
  rcases hresult : (Transport.send (c.datagram m) c.transport.inner).1 with e | _
  · rw [hresult] at hsend
    refine ⟨_, [], rfl, ?_, by simp, fun _ _ => rfl⟩
    rw [request_of_unsent hopen hfits hsend]
  · rw [hresult] at hsend
    obtain ⟨looks, hevents, hlooks⟩ := (keeps_looks _).request ⟨hopen, hfits, hsend⟩
      ⟨[], (List.append_nil _).symm, by simp⟩
    refine ⟨_, looks, rfl, ?_, hlooks, by simp⟩
    rw [hevents, List.append_assoc, List.singleton_append]

/-- On a closed connection each closing call is tried, and nothing else is done. -/
theorem events_of_closed (hclosed : c.closed = true) (calls : List Call) :
    (c.after calls).transport.events =
      c.transport.events ++ List.replicate (calls.count .close) .closed := by
  induction calls generalizing c with
  | nil => simp
  | cons call calls ih =>
    cases call with
    | request m =>
      have hsame : c.next (.request m) = c := by rw [next, request_of_closed hclosed]
      rw [after_cons, hsame, ih hclosed, List.count_cons_of_ne (by simp)]
    | close =>
      have hevents : (c.next .close).transport.events = c.transport.events ++ [.closed] := rfl
      rw [after_cons, ih rfl, hevents, List.count_cons_self, List.replicate_succ,
        List.append_assoc, List.singleton_append]

/-- After any calls on a fresh connection: each request before the first closing call has used up
one number, whatever came of it, and the connection is closed exactly if some call closed it. While
it is open the next request is one attempt to send, then looks if that succeeds, and what goes out
is the caller's message with the next number and, unless it names one, the port of the connection.
Once it is closed it stays so, a request fails and changes nothing, and calls do nothing on the
transport but try to close it. -/
theorem session_account (host : Host) (s : σ) (sequence portId : UInt32) (calls : List Call) :
    let start : Connection (Logged σ) :=
      { toHost := host, transport := { inner := s }, sequence, portId }
    let c := start.after calls
    c.sequence = sequence + UInt32.ofNat (beforeClose calls).length ∧
    (c.closed = true ↔ Call.close ∈ calls) ∧
    (Call.close ∉ calls → ∀ m : Message, m.size < Message.sizeLimit →
      (∃ result looks, (Transport.send (c.datagram m) c.transport.inner).1 = result ∧
        (c.request m).2.transport.events =
          c.transport.events ++ Logged.sending (c.datagram m) result :: looks ∧
        (∀ e ∈ looks, e.isLook = true) ∧ (∀ e, result = .error e → looks = [])) ∧
      Message.decode host.order (c.datagram m) = .ok
        { header :=
            { length := UInt32.ofNat m.size
              type := m.header.type
              flags := m.header.flags
              sequence := c.sequence
              portId := if m.header.portId = 0 then portId else m.header.portId }
          payload := m.payload }) ∧
    (Call.close ∈ calls →
      (∀ m, c.request m = (.error .connectionClosed, c)) ∧
      ∀ later, (c.after later).closed = true ∧ (c.after later).transport.events =
        c.transport.events ++ List.replicate (later.count .close) .closed) := by
  intro start c
  have hclosed : c.closed = true ↔ Call.close ∈ calls := by
    rw [after_closed]; simp [start]
  refine ⟨?_, hclosed, fun hnever m hfits => ⟨?_, ?_⟩, fun hsome => ⟨?_, fun later => ⟨?_, ?_⟩⟩⟩
  · rw [after_sequence]; rfl
  · have hopen : c.closed = false := Bool.not_eq_true _ ▸ mt hclosed.1 hnever
    exact request_events hopen hfits
  · have hhost : c.toHost = host := start.after_toHost calls
    have hport : c.portId = portId := start.after_portId calls
    rw [datagram, ← hhost, Message.decode_wire (sealed_outgoing hfits), ← hport]
    rfl
  · exact fun m => request_of_closed (hclosed.2 hsome)
  · exact (after_closed c later).2 (Or.inl (hclosed.2 hsome))
  · exact events_of_closed (hclosed.2 hsome) later

/-- Two requests that cannot be sent take the number past its end, and a third one is a further
attempt. Closing fails, and closes the connection all the same. -/
theorem session_account_of_unsent :
    let m := Message.make 0x1a MessageFlag.request [1]
    let start : Connection (Logged Script) :=
      { transport := { inner := { sendFault := some .timedOut, closeFault := some .timedOut } }
        sequence := 0xFFFFFFFF, portId := 7, order := .big }
    let used := start.after [.request m, .request m]
    let shut := start.after [.request m, .request m, .close, .request m]
    Call.close ∉ [Call.request m, .request m] ∧ m.size < Message.sizeLimit ∧
      used.sequence = 1 ∧ used.closed = false ∧
      (used.request m).2.transport.events =
        used.transport.events ++ [.unsent (used.datagram m)] ∧
      Message.decode .big (used.datagram m) =
        .ok (Message.ofParts 0x1a MessageFlag.request 1 7 [1]) ∧
      Call.close ∈ [Call.request m, .request m, .close, .request m] ∧
      shut.sequence = 1 ∧ shut.closed = true ∧
      shut.request m = (.error .connectionClosed, shut) := by
  intro m start used shut
  have hnever : Call.close ∉ [Call.request m, .request m] := by decide
  have hsome : Call.close ∈ [Call.request m, .request m, .close, .request m] := by decide
  have hfits : m.size < Message.sizeLimit := by decide
  have hnumber : (0xFFFFFFFF : UInt32) + UInt32.ofNat 2 = 1 := by decide
  obtain ⟨hused, hopen, hsends, -⟩ :=
    session_account start.toHost start.transport.inner 0xFFFFFFFF 7 [.request m, .request m]
  obtain ⟨hshut, hclosed, -, hrefused⟩ := session_account start.toHost start.transport.inner
    0xFFFFFFFF 7 [.request m, .request m, .close, .request m]
  obtain ⟨⟨result, looks, hresult, hevents, -, hlooks⟩, hread⟩ := hsends hnever m hfits
  have hfails : result = .error .timedOut := hresult.symm
  rw [hfails, hlooks _ hfails] at hevents
  have hone : used.sequence = 1 := by
    rw [← hnumber]; exact hused.trans (by simp [beforeClose])
  refine ⟨hnever, hfits, hone, ?_, hevents, ?_, hsome, ?_, hclosed.2 hsome, ?_⟩
  · exact Bool.not_eq_true _ ▸ mt hopen.1 hnever
  · rw [hread, show _ = (1 : UInt32) from hone]; rfl
  · rw [← hnumber]; exact hshut.trans (by simp [beforeClose])
  · exact (hrefused hsome).1 m

end Connection

end GenericNetlink
