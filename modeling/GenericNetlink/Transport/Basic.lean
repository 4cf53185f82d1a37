import GenericNetlink.Errno
import GenericNetlink.Host

/-!
Transports: what moves whole datagrams.

A transport is a state and four calls on it. It holds finitely many datagrams, which is what
`waiting` and `nextSize` measure: `peek_ok` and `receive_ok` say that peeking leaves them alone
and that receiving uses one up, so that a receiver comes to an end.
-/

namespace GenericNetlink

/-- A state on which datagrams can be sent and received. Peeking shows the first bytes, up to a
number, of the next datagram, which stays; receiving uses it up. There are `waiting` datagrams, and
`nextSize` is how many bytes of the next one a peek can show. -/
class Transport (σ : Type) where
  send : Bytes → σ → Except Errno Unit × σ
  peek : Nat → σ → Except Errno Bytes × σ
  receive : Nat → σ → Except Errno Bytes × σ
  close : σ → Except Errno Unit × σ
  waiting : σ → Nat
  nextSize : σ → Nat
  peek_ok {size : Nat} {s t : σ} {shown : Bytes} : peek size s = (.ok shown, t) →
    shown.length ≤ nextSize s ∧ nextSize t = nextSize s ∧ waiting t = waiting s
  receive_ok {size : Nat} {s t : σ} {taken : Bytes} : receive size s = (.ok taken, t) →
    waiting t < waiting s

namespace Transport

variable {σ : Type} [Transport σ]

/-- The size of a buffer that the next datagram does not fill: the first one of at least `pages`
whole pages for which a peek leaves room. -/
def roomFor (page : PageSize) (pages : Nat) (s : σ) : Except Errno Nat × σ :=
  match _h : peek (pages * page.bytes) s with
  | (.error e, s) => (.error e, s)
  | (.ok shown, s) =>
    if shown.length < pages * page.bytes then (.ok (pages * page.bytes), s)
    else roomFor page (pages + 1) s
termination_by nextSize s + 1 - pages
decreasing_by
  have := peek_ok _h
  have : pages ≤ pages * page.bytes := Nat.le_mul_of_pos_right _ page.bytes_pos
  omega

variable {page : PageSize}

theorem waiting_roomFor {pages n : Nat} {s t : σ} (h : roomFor page pages s = (.ok n, t)) :
    waiting t = waiting s := by
  fun_induction roomFor page pages s with
  | case1 => simp at h
  | case2 pages s shown s' hp hlt =>
    obtain ⟨-, rfl⟩ := Prod.mk.inj h
    exact (peek_ok hp).2.2
  | case3 pages s shown s' hp hlt ih => rw [ih h, (peek_ok hp).2.2]

/-- The next datagram, whole: it is received once, into a buffer that it does not fill. -/
def receiveWhole (page : PageSize) (s : σ) : Except Errno Bytes × σ :=
  match roomFor page 1 s with
  | (.error e, s) => (.error e, s)
  | (.ok size, s) => receive size s

theorem waiting_receiveWhole {s t : σ} {taken : Bytes} (h : receiveWhole page s = (.ok taken, t)) :
    waiting t < waiting s := by
  unfold receiveWhole at h
  split at h
  · simp at h
  · next size s' hr => exact waiting_roomFor hr ▸ receive_ok h

end Transport

end GenericNetlink
