import GenericNetlink.Proofs.Response
import GenericNetlink.Proofs.Session.Account
import GenericNetlink.Proofs.Socket.Replay

/-!
One request over a socket.

Where no call fails, a request over a socket of its own comes to what it comes to over the script
that plays the kernel, and the socket is closed behind it (`Connection.exchange_of_quiet`).
-/

namespace GenericNetlink

/-- Looking for a reply is receiving. -/
theorem Event.operation_of_isLook {e : Event} {u : SystemCall} (h : e.isLook = true)
    (hu : e.exchange = some u) : u.operation = .recv := by
  cases e with
  | peeked | received =>
    obtain rfl := Option.some.inj hu
    rfl
  | sent | unsent | closed => exact absurd h (by simp [isLook])

namespace Connection

/-- Looking for a reply leaves it open how a script is closed. -/
theorem keeps_closing (fault : Option Errno) (closed : Bool) :
    Transport.Keeps fun t : Logged Script =>
      t.inner.closeFault = fault ∧ t.inner.closed = closed where
  peek _ _ h := h
  receive _ _ h := h

variable {m : Message} {r : Response} {datagrams : List Bytes} {rest : Inbox}

/-- Over a script that meets no faults, a request that gets a whole reply comes to what the reply
comes to. It is sent, and then its reply is looked for, and the script can be closed. -/
theorem exchange_of_script (host : Host) (sequence portId : UInt32) {inbox : Inbox}
    (hfits : m.size < Message.sizeLimit)
    (hr : r.WellFormed ((scripted host { inbox } sequence portId).outgoing m).header)
    (hcut : Message.Cut host.order r.messages datagrams)
    (hinbox : inbox = datagrams.map Delivery.ofBytes ++ rest) :
    let d := scripted host { inbox } sequence portId
    (d.request m).1 = r.outcome host.order ∧ (d.request m).2.close.1 = .ok () ∧
      (d.request m).2.transport.inner.inbox = rest ∧
      ∃ looks, (d.request m).2.transport.events = .sent (d.datagram m) :: looks ∧
        ∀ e ∈ looks, e.isLook = true := by
  intro d
  have hsent : d.Sent m { d.transport with events := [.sent (d.datagram m)] } := ⟨rfl, hfits, rfl⟩
  obtain ⟨hresult, hrest⟩ := request_of_response hsent hr hcut hinbox
  obtain ⟨hfault, hopen⟩ := (keeps_closing none false).request hsent ⟨rfl, rfl⟩
  obtain ⟨result, looks, hsends, hevents, hlooks, -⟩ := request_events (c := d) rfl hfits
  obtain rfl : .ok () = result := hsends
  refine ⟨hresult, ?_, hrest, looks, hevents, hlooks⟩
  have hcloses : (Transport.close (d.request m).2.transport).1 = .ok () := by
    show (Script.close (d.request m).2.transport.inner).1 = _
    rw [Script.close, if_neg (by simp [hopen]), hfault]
    rfl
  exact congrArg (Except.mapError _) hcloses

/-- Where no call fails, a request that gets a whole reply over a socket of its own comes to what the
reply comes to. It is the one datagram that is sent, and the socket is closed behind it. -/
theorem exchange_of_quiet (settings : Settings) (sequence : UInt32) {k : Kernel}
    (hquiet : k.Quiet) (hfits : m.size < Message.sizeLimit)
    (hr : r.WellFormed ((opened settings sequence k).outgoing m).header)
    (hcut : Message.Cut k.order r.messages datagrams)
    (hinbox : k.inbox = datagrams.map Delivery.ofBytes ++ rest) :
    let c := opened settings sequence k
    let left := (c.request m).2.close.2.transport.release
    (c.request m).1 = r.outcome k.order ∧ (c.request m).2.close.1 = .ok () ∧ left.inbox = rest ∧
      ∃ looks, left.exchanges = k.exchanges ++ .send (c.datagram m) 0 :: looks ∧
        ∀ u ∈ looks, u.operation = .recv := by
  intro c left
  let d := scripted k.toHost { inbox := k.inbox } sequence c.portId
  have hplays : Script.Plays { inbox := k.inbox } k :=
    ⟨rfl, fun n => hquiet n _, fun n => hquiet n _, fun n => hquiet n _⟩
  have hmatches : Matches (Socket.Mirrors _) c d := matches_scripted hplays rfl
  have hsame : d.outgoing m = c.outgoing m := (hmatches.outgoing_eq m).symm
  obtain ⟨hresult, hcloses, hrest, looks, hevents, hlooks⟩ :=
    exchange_of_script k.toHost sequence c.portId hfits (hsame ▸ hr) hcut hinbox
  -- what is so over the script is so over the socket
  obtain ⟨hrequest, hleft⟩ := hmatches.request (Socket.agree_mirrors _) m
  obtain ⟨hclose, hshut⟩ := hleft.close (Socket.agree_mirrors _)
  obtain ⟨-, hreleased⟩ := (Socket.agree_mirrors _).close hshut.transport
  refine ⟨hrequest.trans hresult, hclose.trans hcloses, ?_, looks.filterMap Event.exchange, ?_, ?_⟩
  · exact hreleased.plays.inbox.symm.trans
      ((Script.inbox_close _).trans ((Script.inbox_close _).trans hrest))
  · have hall : (Transport.close (d.request m).2.close.2.transport).2.events =
        .sent (c.datagram m) :: (looks ++ [.closed, .closed]) := by
      show ((d.request m).2.transport.events ++ [.closed]) ++ [.closed] = _
      rw [hevents, ← hmatches.datagram_eq, List.append_assoc]
      rfl
    refine hreleased.exchanges.trans ?_
    rw [Socket.exchanges_opened]
    show _ ++ List.filterMap Event.exchange _ = _
    rw [hall]
    simp [List.filterMap_cons, Event.exchange]
  · intro u hu
    obtain ⟨e, he, heu⟩ := List.mem_filterMap.1 hu
    exact Event.operation_of_isLook (hlooks e he) heu

end Connection

end GenericNetlink
