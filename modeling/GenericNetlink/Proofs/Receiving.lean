import GenericNetlink.Proofs.Request.Basic

/-!
What receiving keeps.

A reply is received by peeking and receiving alone. So whatever these two keep of a transport
(`Transport.Keeps`) holds at the end of a request if it holds when the request has been sent
(`Transport.Keeps.request`). What sending keeps as well holds at the end of any request
(`Transport.Invariant.request`).
-/

namespace GenericNetlink

namespace Transport

variable {σ : Type} [Transport σ] {P : σ → Prop}

/-- Peeking and receiving keep a property of the transport, whether they succeed or fail. -/
structure Keeps (P : σ → Prop) : Prop where
  peek (size : Nat) {s : σ} : P s → P (Transport.peek size s).2
  receive (size : Nat) {s : σ} : P s → P (Transport.receive size s).2

namespace Keeps

theorem roomFor (h : Keeps P) {page : PageSize} {pages : Nat} {s : σ} (hs : P s) :
    P (Transport.roomFor page pages s).2 := by
  fun_induction Transport.roomFor page pages s with
  | case1 pages s e t hp => simpa only [hp] using h.peek (pages * page.bytes) hs
  | case2 pages s shown t hp _ => simpa only [hp] using h.peek (pages * page.bytes) hs
  | case3 pages s shown t hp _ ih =>
    have ht : P t := by simpa only [hp] using h.peek (pages * page.bytes) hs
    exact ih ht

theorem receiveWhole (h : Keeps P) {page : PageSize} {s : σ} (hs : P s) :
    P (Transport.receiveWhole page s).2 := by
  have hroom : P (Transport.roomFor page 1 s).2 := h.roomFor hs
  unfold Transport.receiveWhole
  rcases hr : Transport.roomFor page 1 s with ⟨e | size, t⟩
  · rwa [hr] at hroom
  · rw [hr] at hroom
    exact h.receive size hroom

theorem receiveBatch (h : Keeps P) (host : Host) {s : σ} (hs : P s) :
    P (Connection.receiveBatch host s).2 := by
  have hwhole : P (Transport.receiveWhole host.page s).2 := h.receiveWhole hs
  unfold Connection.receiveBatch
  rcases hr : Transport.receiveWhole host.page s with ⟨e | datagram, t⟩
  · rwa [hr] at hwhole
  · rwa [hr] at hwhole

theorem collect (h : Keeps P) {host : Host} {request : Header} {s : σ} (hs : P s) :
    P (Connection.collect host request s).2 := by
  fun_induction Connection.collect host request s with
  | case1 s e t hb => simpa only [hb] using h.receiveBatch host hs
  | case2 s batch t hb e _ => simpa only [hb] using h.receiveBatch host hs
  | case3 s batch t hb _ _ => simpa only [hb] using h.receiveBatch host hs
  | case4 s batch t hb _ _ rest u hrest ih =>
    have ht : P t := by simpa only [hb] using h.receiveBatch host hs
    simpa only [hrest] using ih ht

/-- What holds when a request has been sent holds when the request is over. -/
theorem request (h : Keeps P) {c : Connection σ} {m : Message} {t : σ} (hsent : c.Sent m t)
    (ht : P t) : P (c.request m).2.transport := by
  rw [Connection.request_of_sent hsent]
  exact h.collect ht

end Keeps

/-- All calls on the transport keep a property of it, whether they succeed or fail. -/
structure Invariant (P : σ → Prop) : Prop extends Keeps P where
  send (datagram : Bytes) {s : σ} : P s → P (Transport.send datagram s).2
  close {s : σ} : P s → P (Transport.close s).2

/-- An invariant of the transport holds behind a request, whatever comes of it. -/
theorem Invariant.request (h : Invariant P) {c : Connection σ} (hc : P c.transport) (m : Message) :
    P (c.request m).2.transport := by
  cases hclosed : c.closed with
  | true =>
    rw [Connection.request_of_closed hclosed]
    exact hc
  | false =>
    rcases Nat.lt_or_ge m.size Message.sizeLimit with hfits | hlong
    · have ht := h.send (c.datagram m) hc
      rcases hs : Transport.send (c.datagram m) c.transport with ⟨e | _, t⟩
      · rw [hs] at ht
        rw [Connection.request_of_unsent hclosed hfits hs]
        exact ht
      · rw [hs] at ht
        exact h.toKeeps.request ⟨hclosed, hfits, hs⟩ ht
    · rw [Connection.request_of_tooLong hclosed hlong]
      exact hc

end Transport

end GenericNetlink
