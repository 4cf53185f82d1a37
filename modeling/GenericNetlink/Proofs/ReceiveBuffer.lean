import GenericNetlink.Proofs.Packing
import GenericNetlink.Proofs.Reading

/-!
The buffer into which a datagram is received.

A receiver peeks with a buffer that grows by a page until the datagram does not fill it
(`Mailbox.roomFor_events`), and receives once, into a zeroed buffer of the last size. What it keeps
of that buffer is the datagram up to a word boundary (`Bytes.take_buffer`): nothing of a datagram is
cut off, and of what was peeked at only the length matters (`Connection.receiveBatch_of_delivery`).
-/

namespace GenericNetlink

/-! ### The buffer -/

namespace Bytes

/-- A zeroed buffer of some size, with bytes written to the front of it. -/
def buffer (size : Nat) (b : Bytes) : Bytes := b ++ zeros (size - b.length)

/-- In a buffer of whole words, the bytes are followed by their padding. -/
theorem take_buffer {size : Nat} {b : Bytes} (hwords : size % 4 = 0) (hfits : b.length ≤ size) :
    (buffer size b).take (min (wordAlign b.length) size) = b.padded := by
  have hle : wordAlign b.length ≤ size := by unfold wordAlign; omega
  have hpad := le_wordAlign b.length
  rw [Nat.min_eq_left hle, buffer, List.take_append, List.take_of_length_le hpad, zeros,
    List.take_replicate, Nat.min_eq_left (by omega), padded, zeros]

end Bytes

theorem Delivery.room_mod (page : PageSize) (d : Delivery) : d.room page % 4 = 0 :=
  Nat.mod_eq_zero_of_dvd (Nat.dvd_trans page.wordSize_dvd (Nat.dvd_mul_left _ _))

theorem Delivery.length_received_le (page : PageSize) (d : Delivery) :
    (d.received page).length ≤ d.room page :=
  List.length_take_le ..

/-- Of a datagram that is received as it was peeked at, every byte gets into the buffer. -/
theorem Delivery.received_of_unchanged (page : PageSize) {d : Delivery} (h : d.taken = d.shown) :
    d.received page = d.shown := by
  rw [received, h]
  exact List.take_of_length_le (Nat.le_of_lt (d.shown_lt_room page))

/-! ### The calls that are made -/

namespace Mailbox

variable {σ : Type} [Transport σ] [Mailbox σ] {page : PageSize} {s : Logged σ} {d : Delivery}
  {rest : Inbox}

/-- The delivery is peeked at with one page more each time, until it does not fill the buffer. -/
theorem roomFor_events {pages more : Nat} (hi : inbox s = d :: rest) (hd : d.peekFault = none)
    (hmore : pages + more = d.shown.length / page.bytes + 1) :
    (Transport.roomFor page pages s).2.events =
      s.events ++ (List.range' pages (more + 1)).map fun n => .peeked (n * page.bytes) := by
  induction more generalizing pages s with
  | zero =>
    have hroom : d.room page = pages * page.bytes := by rw [Delivery.room, ← hmore, Nat.add_zero]
    rw [roomFor_of_lt hi hd (hroom ▸ d.shown_lt_room page)]
    rfl
  | succ more ih =>
    obtain ⟨t, hp, ht⟩ := peek_of_shown hi hd (pages * page.bytes)
    have hevents : t.events = s.events ++ [.peeked (pages * page.bytes)] :=
      (congrArg (·.2.events) hp).symm
    have hfills := (Nat.le_div_iff_mul_le page.bytes_pos).1
      (show pages ≤ d.shown.length / page.bytes by omega)
    rw [roomFor_of_le hi hd hfills, hp, ih ht (by omega), hevents, List.range'_succ, List.map_cons,
      List.append_assoc]
    rfl

/-- Then it is received once, into a buffer of the last size. -/
theorem receiveWhole_events (hi : inbox s = d :: rest) (hd : d.peekFault = none) :
    (Transport.receiveWhole page s).2.events =
      s.events ++ ((List.range' 1 (d.shown.length / page.bytes + 1)).map fun n =>
        .peeked (n * page.bytes)) ++ [.received (d.room page)] := by
  have hevents := roomFor_events hi hd (Nat.add_comm 1 (d.shown.length / page.bytes))
  have hroom := roomFor_of_shown hi hd (Nat.le_add_left 1 (d.shown.length / page.bytes))
  rw [Transport.receiveWhole]
  rcases hr : Transport.roomFor page 1 s with ⟨r, t⟩
  rw [hr] at hevents hroom
  obtain ⟨rfl, -⟩ := Prod.mk.inj hroom
  rw [← hevents]
  rfl

end Mailbox

/-! ### What comes of it -/

namespace Connection

variable {σ : Type} [Transport σ]

theorem receiveBatch_events (host : Host) (s : Logged σ) :
    (receiveBatch host s).2.events = (Transport.receiveWhole host.page s).2.events := by
  rw [receiveBatch]
  rcases Transport.receiveWhole host.page s with ⟨e | datagram, t⟩ <;> rfl

variable [Mailbox σ]

/-- The batch that a receiver gets of a delivery is what it parses of the bytes received, up to a
word boundary. -/
theorem receiveBatch_of_arrival {host : Host} {s : σ} {d : Delivery} {rest : Inbox}
    (hi : Mailbox.inbox s = d :: rest) (hpeek : d.peekFault = none)
    (hreceive : d.receiveFault = none) :
    (receiveBatch host s).1 = Message.decodeAll host.order (d.received host.page).padded ∧
      Mailbox.inbox (receiveBatch host s).2 = rest := by
  have hview := Mailbox.receiveBatch_view host s
  rw [hi, Inbox.arrive, Delivery.arrival_eq_ok_iff.2 ⟨hpeek, hreceive, rfl⟩] at hview
  exact Prod.mk.inj hview

/-- A receiver peeks at a delivery with one page, two pages and so on, up to the first size that the
delivery does not fill. It receives once, into a zeroed buffer of that size, which uses up this
delivery and nothing else, and parses what is in the buffer up to a word boundary. Where the
delivery is what was peeked at, that is all of it and its padding. Where it is not, only the length
of what was peeked at has a say in the outcome. -/
theorem receiveBatch_of_delivery (host : Host) {s : Logged σ} {d : Delivery} {rest : Inbox}
    (hi : Mailbox.inbox s = d :: rest) (hpeek : d.peekFault = none)
    (hreceive : d.receiveFault = none) :
    let page := host.page.bytes
    let pages := d.shown.length / page + 1
    let size := pages * page
    let got : Bytes := d.taken.take size
    let kept := (Bytes.buffer size got).take (min (wordAlign got.length) size)
    (receiveBatch host s).2.events = s.events ++
        ((List.range' 1 pages).map fun n => .peeked (n * page)) ++ [.received size] ∧
      Mailbox.inbox (receiveBatch host s).2 = rest ∧
      (receiveBatch host s).1 = Message.decodeAll host.order kept ∧ kept = got.padded ∧
      (d.taken = d.shown → got = d.shown ∧ d.shown.length < size) ∧
      ∀ (other : Bytes) (s' : Logged σ) (rest' : Inbox), other.length = d.shown.length →
        Mailbox.inbox s' = { d with shown := other } :: rest' →
        (receiveBatch host s').1 = (receiveBatch host s).1 := by
  intro page pages size got kept
  obtain ⟨hresult, hrest⟩ := receiveBatch_of_arrival hi hpeek hreceive
  have hkept : kept = got.padded :=
    Bytes.take_buffer (d.room_mod host.page) (d.length_received_le host.page)
  refine ⟨?_, hrest, ?_, hkept, ?_, ?_⟩
  · rw [receiveBatch_events]
    exact Mailbox.receiveWhole_events hi hpeek
  · rw [hkept]
    exact hresult
  · intro hsame
    exact ⟨Delivery.received_of_unchanged host.page hsame, d.shown_lt_room host.page⟩
  · intro other s' rest' hlength hi'
    -- the room is made for a length, and what was shown is not looked at again
    have hroom : Delivery.received host.page { d with shown := other } = d.received host.page := by
      simp only [Delivery.received, Delivery.room, hlength]
    rw [(receiveBatch_of_arrival hi' hpeek hreceive).1, hresult, hroom]

/-- A datagram that fills a page of 4096 bytes is received into a buffer of two. -/
theorem receiveBatch_of_page :
    let host : Host := { order := .little, page := ⟨4096, by decide, by decide⟩ }
    let m := (Message.make 0x1a 0 (List.replicate 4080 1)).withLength
    let d := Delivery.ofBytes ([m].flatMap (Message.wire .little))
    let s : Logged Script := { inner := { inbox := [d] } }
    d.shown.length = 4096 ∧
      (receiveBatch host s).2.events = [.peeked 4096, .peeked 8192, .received 8192] ∧
      (receiveBatch host s).1 = .ok [m] ∧ Mailbox.inbox (receiveBatch host s).2 = [] := by
  intro host m d s
  have hsize : (Message.make 0x1a 0 (List.replicate 4080 1)).size = 4096 := by
    rw [Message.size, Message.make, List.length_replicate]
    rfl
  have hsealed : m.Sealed := Message.sealed_withLength (by rw [hsize]; decide)
  have hlength : d.shown.length = 4096 := by
    show ([m].flatMap (Message.wire .little)).length = _
    rw [List.flatMap_singleton, Message.length_wire, Message.wireSize, Message.size_withLength,
      hsize]
    rfl
  have hinbox : Mailbox.inbox s = [d] := rfl
  obtain ⟨hevents, hrest, hresult, hkept, -⟩ := receiveBatch_of_delivery host hinbox rfl rfl
  refine ⟨hlength, ?_, ?_, hrest⟩
  · rw [hlength, show host.page.bytes = 4096 from rfl] at hevents
    exact hevents
  · rw [hresult, hkept]
    exact (Delivery.brings_wires (List.forall_mem_singleton.2 hsealed)).parses

end Connection

end GenericNetlink
