import GenericNetlink.Transport.Basic

/-!
A transport that remembers the calls made on it.
-/

namespace GenericNetlink

/-- A call on a transport: a datagram was sent or could not be, the next one was peeked at with a
buffer or received into one, or the transport was closed. -/
inductive Event where
  | sent (datagram : Bytes)
  | unsent (datagram : Bytes)
  | peeked (size : Nat)
  | received (size : Nat)
  | closed
  deriving DecidableEq

/-- A transport and the calls made on it, in order. -/
structure Logged (σ : Type) where
  inner : σ
  events : List Event := []

namespace Logged

variable {σ : Type} [Transport σ]

/-- Makes a call and remembers it. -/
def call {α : Type} (event : Except Errno α → Event) (f : σ → Except Errno α × σ)
    (s : Logged σ) : Except Errno α × Logged σ :=
  let (result, inner) := f s.inner
  (result, { inner, events := s.events ++ [event result] })

/-- How sending a datagram is remembered. -/
def sending (datagram : Bytes) : Except Errno Unit → Event
  | .ok _ => .sent datagram
  | .error _ => .unsent datagram

instance : Transport (Logged σ) where
  send datagram := call (sending datagram) (Transport.send datagram)
  peek size := call (fun _ => .peeked size) (Transport.peek size)
  receive size := call (fun _ => .received size) (Transport.receive size)
  close := call (fun _ => .closed) Transport.close
  waiting s := Transport.waiting s.inner
  nextSize s := Transport.nextSize s.inner
  peek_ok {size s t shown} h := by
    have result : (Transport.peek size s.inner).1 = .ok shown := congrArg Prod.fst h
    have state : t.inner = (Transport.peek size s.inner).2 :=
      (congrArg (·.2.inner) h).symm
    exact state ▸ Transport.peek_ok (Prod.ext result rfl)
  receive_ok {size s t taken} h := by
    have result : (Transport.receive size s.inner).1 = .ok taken := congrArg Prod.fst h
    have state : t.inner = (Transport.receive size s.inner).2 :=
      (congrArg (·.2.inner) h).symm
    exact state ▸ Transport.receive_ok (Prod.ext result rfl)

end Logged

end GenericNetlink
