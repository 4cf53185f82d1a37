import GenericNetlink.Transport.Logged
import GenericNetlink.Transport.Script

/-!
Transports that hand out the datagrams of an inbox.

A `Mailbox` says how a transport looks to a receiver: peeking and receiving are those of the inbox
that it holds. What sending does to the inbox is left open, so the other side may answer at once.
`receiveWhole_view` is what peeking page by page comes to: the next delivery arrives whole, or the
first of its faults does.
-/

namespace GenericNetlink

/-- A transport that hands out the datagrams of an inbox: peeking and receiving are those of the
inbox. -/
class Mailbox (σ : Type) [Transport σ] where
  inbox : σ → Inbox
  peek_view (size : Nat) (s : σ) : (Transport.peek size s).map id inbox = (inbox s).peek size
  receive_view (size : Nat) (s : σ) :
    (Transport.receive size s).map id inbox = (inbox s).receive size

instance : Mailbox Script where
  inbox := Script.inbox
  peek_view _ _ := rfl
  receive_view _ _ := rfl

instance {σ : Type} [Transport σ] [Mailbox σ] : Mailbox (Logged σ) where
  inbox s := Mailbox.inbox s.inner
  peek_view size s := Mailbox.peek_view size s.inner
  receive_view size s := Mailbox.receive_view size s.inner

/-! ### What arrives -/

namespace Delivery

variable (page : PageSize)

/-- The size of the buffer that a receiver makes for the delivery: whole pages, and the fewest
that it does not fill. -/
def room (d : Delivery) : Nat := (d.shown.length / page.bytes + 1) * page.bytes

/-- The bytes that get into that buffer. -/
def received (d : Delivery) : Bytes := d.taken.take (d.room page)

/-- What comes of receiving the delivery: its bytes, or the first of its faults. -/
def arrival (d : Delivery) : Except Errno Bytes :=
  match d.peekFault, d.receiveFault with
  | some e, _ => .error e
  | none, some e => .error e
  | none, none => .ok (d.received page)

theorem shown_lt_room (d : Delivery) : d.shown.length < d.room page := by
  have := Nat.div_add_mod d.shown.length page.bytes
  have := Nat.mod_lt d.shown.length page.bytes_pos
  rw [room, Nat.add_mul, Nat.mul_comm]
  omega

/-- A datagram that comes unharmed is received whole. -/
theorem received_ofBytes (b : Bytes) : (ofBytes b).received page = b :=
  List.take_of_length_le (Nat.le_of_lt (shown_lt_room page (ofBytes b)))

variable {page}

theorem arrival_eq_ok_iff {d : Delivery} {b : Bytes} :
    d.arrival page = .ok b ↔
      d.peekFault = none ∧ d.receiveFault = none ∧ d.received page = b := by
  unfold arrival
  cases d.peekFault <;> cases d.receiveFault <;> simp

end Delivery

/-- Receives the next delivery, or finds that there is none. -/
def Inbox.arrive (page : PageSize) : Inbox → Except Errno Bytes × Inbox
  | [] => (.error .unavailable, [])
  | d :: rest => (d.arrival page, rest)

/-! ### Receiving from a mailbox -/

namespace Mailbox

variable {σ : Type} [Transport σ] [Mailbox σ] {page : PageSize}

theorem inbox_of_peek {size : Nat} {s t : σ} {r : Except Errno Bytes}
    (h : Transport.peek size s = (r, t)) : (r, inbox t) = (inbox s).peek size := by
  rw [← peek_view, h]; rfl

/-- Where nothing can be shown, the first peek ends the receiving. -/
theorem receiveWhole_of_peek_error {s : σ} {e : Errno} {rest : Inbox}
    (h : ∀ size, (inbox s).peek size = (.error e, rest)) :
    (Transport.receiveWhole page s).map id inbox = (.error e, rest) := by
  rw [Transport.receiveWhole, Transport.roomFor]
  cases hp : Transport.peek (1 * page.bytes) s with
  | mk r t =>
    obtain ⟨rfl, ht⟩ := Prod.mk.inj ((inbox_of_peek hp).trans (h _))
    exact congrArg _ ht

/-- A peek shows the first bytes of the delivery, which stays. -/
theorem peek_of_shown {s : σ} {d : Delivery} {rest : Inbox} (hi : inbox s = d :: rest)
    (hd : d.peekFault = none) (size : Nat) :
    ∃ t, Transport.peek size s = (.ok (d.shown.take size), t) ∧ inbox t = d :: rest := by
  rcases hp : Transport.peek size s with ⟨r, t⟩
  have hview := inbox_of_peek hp
  simp only [hi, Inbox.peek, hd, Prod.mk.injEq] at hview
  exact ⟨t, by rw [hview.1], hview.2⟩

section Growing

variable {pages : Nat} {s : σ} {d : Delivery} {rest : Inbox}

/-- A buffer that the delivery does not fill has the right size. -/
theorem roomFor_of_lt (hi : inbox s = d :: rest) (hd : d.peekFault = none)
    (hlt : d.shown.length < pages * page.bytes) :
    Transport.roomFor page pages s =
      (.ok (pages * page.bytes), (Transport.peek (pages * page.bytes) s).2) := by
  obtain ⟨t, hp, -⟩ := peek_of_shown hi hd (pages * page.bytes)
  rw [Transport.roomFor]
  split
  · next e u h => simp [h] at hp
  · next shown u h =>
    rw [h] at hp ⊢
    obtain ⟨hs, rfl⟩ := Prod.mk.inj hp
    rw [Except.ok.inj hs, List.length_take, if_pos (by omega)]

/-- A buffer that the delivery fills grows by a page. -/
theorem roomFor_of_le (hi : inbox s = d :: rest) (hd : d.peekFault = none)
    (hle : pages * page.bytes ≤ d.shown.length) :
    Transport.roomFor page pages s =
      Transport.roomFor page (pages + 1) (Transport.peek (pages * page.bytes) s).2 := by
  obtain ⟨t, hp, -⟩ := peek_of_shown hi hd (pages * page.bytes)
  rw [Transport.roomFor]
  split
  · next e u h => simp [h] at hp
  · next shown u h =>
    rw [h] at hp ⊢
    obtain ⟨hs, rfl⟩ := Prod.mk.inj hp
    rw [Except.ok.inj hs, List.length_take, if_neg (by omega)]

/-- A buffer that is not yet too large grows to the room that the delivery needs. -/
theorem roomFor_of_shown (hi : inbox s = d :: rest) (hd : d.peekFault = none)
    (hle : pages ≤ d.shown.length / page.bytes + 1) :
    (Transport.roomFor page pages s).map id inbox = (.ok (d.room page), d :: rest) := by
  obtain ⟨more, hmore⟩ := Nat.exists_eq_add_of_le hle
  induction more generalizing pages s with
  | zero =>
    obtain ⟨t, hp, ht⟩ := peek_of_shown hi hd (pages * page.bytes)
    have hroom : d.room page = pages * page.bytes := by rw [Delivery.room, hmore, Nat.add_zero]
    rw [roomFor_of_lt hi hd (hroom ▸ d.shown_lt_room page), hp, hroom, ← ht]
    rfl
  | succ more ih =>
    obtain ⟨t, hp, ht⟩ := peek_of_shown hi hd (pages * page.bytes)
    have hfills := (Nat.le_div_iff_mul_le page.bytes_pos).1
      (show pages ≤ d.shown.length / page.bytes by omega)
    rw [roomFor_of_le hi hd hfills, hp]
    exact ih ht (by omega) (by omega)

end Growing

/-- What is received from a mailbox is what arrives in its inbox. -/
theorem receiveWhole_view (s : σ) :
    (Transport.receiveWhole page s).map id inbox = (inbox s).arrive page := by
  cases hi : inbox s with
  | nil => exact receiveWhole_of_peek_error fun size => by rw [hi]; rfl
  | cons d rest =>
    cases hp : d.peekFault with
    | some e =>
      have herr (size : Nat) : (inbox s).peek size = (.error e, rest) := by rw [hi, Inbox.peek, hp]
      rw [receiveWhole_of_peek_error herr]
      simp only [Inbox.arrive, Delivery.arrival, hp]
    | none =>
      have hr : (Transport.roomFor page 1 s).map id inbox = (.ok (d.room page), d :: rest) :=
        roomFor_of_shown hi hp (Nat.le_add_left 1 _)
      rw [Transport.receiveWhole]
      cases hroom : Transport.roomFor page 1 s with
      | mk r t =>
        rw [hroom] at hr
        obtain ⟨rfl, hview⟩ := Prod.mk.inj hr
        rw [receive_view, show inbox t = d :: rest from hview]
        cases hf : d.receiveFault <;>
          simp only [Inbox.receive, Inbox.arrive, Delivery.arrival, Delivery.received, hp, hf]

end Mailbox

end GenericNetlink
