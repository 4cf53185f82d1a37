import GenericNetlink.Transport.Inbox

/-!
A transport in memory: it replays the datagrams and the faults it was given.
-/

namespace GenericNetlink

/-- A transport that replays what it was given: the datagrams to be received, and the faults that
sending and closing meet. -/
structure Script where
  inbox : Inbox := []
  sendFault : Option Errno := none
  closeFault : Option Errno := none
  closed : Bool := false
  deriving DecidableEq, Inhabited

namespace Script

/-- Shows the next datagram. -/
def peek (size : Nat) (s : Script) : Except Errno Bytes × Script :=
  let (result, inbox) := s.inbox.peek size
  (result, { s with inbox })

/-- Receives the next datagram. -/
def receive (size : Nat) (s : Script) : Except Errno Bytes × Script :=
  let (result, inbox) := s.inbox.receive size
  (result, { s with inbox })

/-- Closes once, also if the closing fails. -/
def close (s : Script) : Except Errno Unit × Script :=
  if s.closed then (.error .badDescriptor, s)
  else (Errno.orDone s.closeFault, { s with closed := true })

instance : Transport Script where
  send _ s := (Errno.orDone s.sendFault, s)
  peek := peek
  receive := receive
  close := close
  waiting s := s.inbox.length
  nextSize s := s.inbox.nextSize
  peek_ok {size s t shown} h := by
    have result : (s.inbox.peek size).1 = .ok shown := congrArg Prod.fst h
    obtain ⟨hle, same⟩ := Inbox.peek_ok (Prod.ext result rfl)
    have state : t.inbox = s.inbox := (congrArg (·.2.inbox) h).symm.trans same
    exact ⟨hle, congrArg Inbox.nextSize state, congrArg List.length state⟩
  receive_ok {size s t taken} h := by
    have result : (s.inbox.receive size).1 = .ok taken := congrArg Prod.fst h
    have state : t.inbox = (s.inbox.receive size).2 := (congrArg (·.2.inbox) h).symm
    exact state ▸ Inbox.receive_ok (Prod.ext result rfl)

end Script

end GenericNetlink
