import GenericNetlink.Proofs.Session.Basic

/-!
Transports that cannot be told apart.

Two transports agree (`Transport.Agree`) if calls on them come to the same and leave them related,
where a closed one need only agree on closing. Then connections over them agree on every request and
on closing (`Connection.Matches.request`, `Connection.Matches.close`).
-/

namespace GenericNetlink

/-! ### Calls on transports -/

namespace Transport

/-- Two calls come to the same, and the states behind them are related. -/
def Alike {α σ τ : Type} (R : σ → τ → Prop) (a : α × σ) (b : α × τ) : Prop :=
  a.1 = b.1 ∧ R a.2 b.2

/-- The other call goes the same way. -/
theorem Alike.split {α σ τ : Type} {R : σ → τ → Prop} {a : α × σ} {b : α × τ} {r : α} {s : σ}
    (h : Alike R a b) (ha : a = (r, s)) : ∃ t, b = (r, t) ∧ R s t := by
  subst ha
  exact ⟨b.2, Prod.ext h.1.symm rfl, h.2⟩

variable {σ τ : Type} [Transport σ] [Transport τ]

/-- Related transports come to the same. The relation may depend on whether they have been closed,
and once they have it only speaks about closing them again. -/
structure Agree (R : Bool → σ → τ → Prop) : Prop where
  send (datagram : Bytes) {s : σ} {t : τ} : R false s t →
    Alike (R false) (Transport.send datagram s) (Transport.send datagram t)
  peek (size : Nat) {s : σ} {t : τ} : R false s t →
    Alike (R false) (Transport.peek size s) (Transport.peek size t)
  receive (size : Nat) {s : σ} {t : τ} : R false s t →
    Alike (R false) (Transport.receive size s) (Transport.receive size t)
  close {closed : Bool} {s : σ} {t : τ} : R closed s t →
    Alike (R true) (Transport.close s) (Transport.close t)

/-- A buffer grows until a peek leaves room. -/
theorem roomFor_eq (page : PageSize) (pages : Nat) (s : σ) : roomFor page pages s =
    match Transport.peek (pages * page.bytes) s with
    | (.error e, s) => (.error e, s)
    | (.ok shown, s) =>
      if shown.length < pages * page.bytes then (.ok (pages * page.bytes), s)
      else roomFor page (pages + 1) s := by
  rw [roomFor]
  split <;> simp_all

namespace Agree

variable {R : Bool → σ → τ → Prop}

theorem roomFor (h : Agree R) {page : PageSize} {pages : Nat} {s : σ} {t : τ}
    (hR : R false s t) :
    Alike (R false) (Transport.roomFor page pages s) (Transport.roomFor page pages t) := by
  fun_induction Transport.roomFor page pages s generalizing t with
  | case1 pages s e s' hs =>
    obtain ⟨t', ht, hR'⟩ := (h.peek (pages * page.bytes) hR).split hs
    rw [roomFor_eq, ht]
    exact ⟨rfl, hR'⟩
  | case2 pages s shown s' hs hroom =>
    obtain ⟨t', ht, hR'⟩ := (h.peek (pages * page.bytes) hR).split hs
    rw [roomFor_eq, ht]
    simp only [if_pos hroom]
    exact ⟨rfl, hR'⟩
  | case3 pages s shown s' hs hfull ih =>
    obtain ⟨t', ht, hR'⟩ := (h.peek (pages * page.bytes) hR).split hs
    rw [roomFor_eq page pages t, ht]
    simp only [if_neg hfull]
    exact ih hR'

theorem receiveWhole (h : Agree R) {page : PageSize} {s : σ} {t : τ} (hR : R false s t) :
    Alike (R false) (Transport.receiveWhole page s) (Transport.receiveWhole page t) := by
  rcases hs : Transport.roomFor page 1 s with ⟨r, s'⟩
  obtain ⟨t', ht, hR'⟩ := (h.roomFor hR).split hs
  rw [Transport.receiveWhole, Transport.receiveWhole, hs, ht]
  cases r with
  | error e => exact ⟨rfl, hR'⟩
  | ok size => exact h.receive size hR'

theorem receiveBatch (h : Agree R) {host : Host} {s : σ} {t : τ} (hR : R false s t) :
    Alike (R false) (Connection.receiveBatch host s) (Connection.receiveBatch host t) := by
  rcases hs : Transport.receiveWhole host.page s with ⟨r, s'⟩
  obtain ⟨t', ht, hR'⟩ := (h.receiveWhole hR).split hs
  rw [Connection.receiveBatch, Connection.receiveBatch, hs, ht]
  cases r with
  | error e => exact ⟨rfl, hR'⟩
  | ok datagram => exact ⟨rfl, hR'⟩

end Agree

end Transport

namespace Connection

open Transport (Agree Alike)

variable {σ τ : Type} [Transport σ] [Transport τ] {R : Bool → σ → τ → Prop}

/-! ### Collecting a reply -/

section Collecting

variable {host : Host} {request : Header} {s u : σ} {batch : List Message} {e : Error}

theorem collect_of_error (h : receiveBatch host s = (.error e, u)) :
    collect host request s = (.error e, u) := by
  rw [collect]
  split
  · next hb =>
    cases h.symm.trans hb
    rfl
  · next hb => cases h.symm.trans hb

theorem collect_of_fault (h : receiveBatch host s = (.ok batch, u))
    (hfault : batch.findSome? (Reply.fault host.order request) = some e) :
    collect host request s = (.error e, u) := by
  rw [collect]
  split
  · next hb => cases h.symm.trans hb
  · next hb =>
    cases h.symm.trans hb
    simp only [hfault]

theorem collect_of_final (h : receiveBatch host s = (.ok batch, u))
    (hfault : batch.findSome? (Reply.fault host.order request) = none)
    (hfinal : Reply.isFinal batch = true) : collect host request s = (.ok batch, u) := by
  rw [collect]
  split
  · next hb => cases h.symm.trans hb
  · next hb =>
    cases h.symm.trans hb
    simp only [hfault, if_pos hfinal]

theorem collect_of_not_final (h : receiveBatch host s = (.ok batch, u))
    (hfault : batch.findSome? (Reply.fault host.order request) = none)
    (hfinal : ¬ Reply.isFinal batch = true) :
    collect host request s =
      ((collect host request u).1.map (batch ++ ·), (collect host request u).2) := by
  rw [collect]
  split
  · next hb => cases h.symm.trans hb
  · next hb =>
    cases h.symm.trans hb
    simp only [hfault, if_neg hfinal]

end Collecting

theorem alike_collect (h : Agree R) (host : Host) (request : Header) {s : σ} {t : τ}
    (hR : R false s t) : Alike (R false) (collect host request s) (collect host request t) := by
  fun_induction collect host request s generalizing t with
  | case1 s e s' hs =>
    obtain ⟨t', ht, hR'⟩ := (h.receiveBatch hR).split hs
    rw [collect_of_error ht]
    exact ⟨rfl, hR'⟩
  | case2 s batch s' hs e hfault =>
    obtain ⟨t', ht, hR'⟩ := (h.receiveBatch hR).split hs
    rw [collect_of_fault ht hfault]
    exact ⟨rfl, hR'⟩
  | case3 s batch s' hs hfault hfinal =>
    obtain ⟨t', ht, hR'⟩ := (h.receiveBatch hR).split hs
    rw [collect_of_final ht hfault hfinal]
    exact ⟨rfl, hR'⟩
  | case4 s batch s' hs hfault hfinal rest u hrest ih =>
    obtain ⟨t', ht, hR'⟩ := (h.receiveBatch hR).split hs
    rw [collect_of_not_final ht hfault hfinal]
    obtain ⟨hresult, hafter⟩ := ih hR'
    rw [hrest] at hresult hafter
    exact ⟨congrArg (Except.map _) hresult, hafter⟩

/-! ### Connections -/

/-- Connections that differ in nothing but transports that are related. -/
structure Matches (R : Bool → σ → τ → Prop) (c : Connection σ) (d : Connection τ) : Prop where
  toHost : c.toHost = d.toHost
  sequence : c.sequence = d.sequence
  portId : c.portId = d.portId
  closed : c.closed = d.closed
  transport : R c.closed c.transport d.transport

namespace Matches

variable {c : Connection σ} {d : Connection τ}

omit [Transport σ] [Transport τ] in
theorem outgoing_eq (hm : Matches R c d) (m : Message) : c.outgoing m = d.outgoing m := by
  simp only [outgoing, stamp, hm.sequence, hm.portId]

omit [Transport σ] [Transport τ] in
theorem datagram_eq (hm : Matches R c d) (m : Message) : c.datagram m = d.datagram m := by
  rw [datagram, datagram, hm.outgoing_eq, hm.toHost]

/-- A request comes to the same on both. -/
theorem request (h : Agree R) (hm : Matches R c d) (m : Message) :
    (c.request m).1 = (d.request m).1 ∧ Matches R (c.request m).2 (d.request m).2 := by
  have htoHost : (c.request m).2.toHost = (d.request m).2.toHost := by
    rw [request_toHost, request_toHost, hm.toHost]
  have hportId : (c.request m).2.portId = (d.request m).2.portId := by
    rw [request_portId, request_portId, hm.portId]
  have hclosed : (c.request m).2.closed = (d.request m).2.closed := by
    rw [request_closed, request_closed, hm.closed]
  have hsequence : (c.request m).2.sequence = (d.request m).2.sequence := by
    rw [request_sequence, request_sequence, hm.closed, hm.sequence]
  -- the rest of the connection does not depend on the transport
  suffices hcourse : (c.request m).1 = (d.request m).1 ∧
      R c.closed (c.request m).2.transport (d.request m).2.transport by
    refine ⟨hcourse.1, htoHost, hsequence, hportId, hclosed, ?_⟩
    rw [request_closed]
    exact hcourse.2
  cases hc : c.closed with
  | true =>
    have hR := hm.transport
    rw [hc] at hR
    rw [request_of_closed hc, request_of_closed (hm.closed ▸ hc)]
    exact ⟨rfl, hR⟩
  | false =>
    have hR := hm.transport
    have hd : d.closed = false := hm.closed ▸ hc
    rw [hc] at hR
    rcases Nat.lt_or_ge m.size Message.sizeLimit with hfits | hlong
    · have hsame : d.datagram m = c.datagram m := (hm.datagram_eq m).symm
      rcases hs : Transport.send (c.datagram m) c.transport with ⟨r, s⟩
      obtain ⟨t, ht, hR'⟩ := (h.send (c.datagram m) hR).split hs
      rw [← hsame] at ht
      cases r with
      | error e =>
        rw [request_of_unsent hc hfits hs, request_of_unsent hd hfits ht]
        exact ⟨rfl, hR'⟩
      | ok _ =>
        obtain ⟨hresult, hafter⟩ := alike_collect h c.toHost (c.outgoing m).header hR'
        rw [request_of_sent ⟨hc, hfits, hs⟩, request_of_sent ⟨hd, hfits, ht⟩, ← hm.outgoing_eq m,
          ← hm.toHost]
        exact ⟨congrArg (·.bind Reply.finish) hresult, hafter⟩
    · rw [request_of_tooLong hc hlong, request_of_tooLong hd hlong]
      exact ⟨rfl, hR⟩

/-- So does closing. -/
theorem close (h : Agree R) (hm : Matches R c d) :
    c.close.1 = d.close.1 ∧ Matches R c.close.2 d.close.2 := by
  obtain ⟨hresult, hafter⟩ := h.close hm.transport
  exact ⟨congrArg (Except.mapError _) hresult, hm.toHost, hm.sequence, hm.portId, rfl, hafter⟩

end Matches

end Connection

end GenericNetlink
