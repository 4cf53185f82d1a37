import GenericNetlink.Transport.Basic

/-!
Datagrams that wait to be received, and the faults that strike on the way.
-/

namespace GenericNetlink

/-- A datagram on its way to a receiver: the bytes that a peek shows and those that are received,
and the faults that either meets. -/
structure Delivery where
  shown : Bytes
  taken : Bytes
  peekFault : Option Errno := none
  receiveFault : Option Errno := none
  deriving DecidableEq

/-- A datagram that arrives unharmed. -/
def Delivery.ofBytes (b : Bytes) : Delivery := { shown := b, taken := b }

/-- The datagrams that wait, the next one first. -/
abbrev Inbox := List Delivery

namespace Inbox

/-- Shows the first bytes of the next datagram, which stays; one that cannot be shown is lost. If
there is none, this fails at once and does not wait for one, as is assumed of `Kernel`. -/
def peek (size : Nat) : Inbox → Except Errno Bytes × Inbox
  | [] => (.error .unavailable, [])
  | d :: rest =>
    match d.peekFault with
    | some e => (.error e, rest)
    | none => (.ok (d.shown.take size), d :: rest)

/-- Takes the next datagram and gives its first bytes; one that cannot be received is lost. If there
is none, this fails as `peek` does. -/
def receive (size : Nat) : Inbox → Except Errno Bytes × Inbox
  | [] => (.error .unavailable, [])
  | d :: rest =>
    match d.receiveFault with
    | some e => (.error e, rest)
    | none => (.ok (d.taken.take size), rest)

/-- How many bytes the next datagram shows. -/
def nextSize : Inbox → Nat
  | [] => 0
  | d :: _ => d.shown.length

theorem peek_ok {size : Nat} {i j : Inbox} {shown : Bytes} (h : peek size i = (.ok shown, j)) :
    shown.length ≤ nextSize i ∧ j = i := by
  cases i with
  | nil => simp [peek] at h
  | cons d rest =>
    simp only [peek] at h
    split at h
    · simp at h
    · obtain ⟨rfl, rfl⟩ : d.shown.take size = shown ∧ d :: rest = j := by simpa using h
      exact ⟨List.length_take_le' .., rfl⟩

theorem receive_ok {size : Nat} {i j : Inbox} {taken : Bytes}
    (h : receive size i = (.ok taken, j)) : j.length < i.length := by
  cases i with
  | nil => simp [receive] at h
  | cons d rest =>
    simp only [receive] at h
    split at h
    · simp at h
    · obtain ⟨-, rfl⟩ : d.taken.take size = taken ∧ rest = j := by simpa using h
      simp

end Inbox

end GenericNetlink
