import GenericNetlink.Socket.Basic

/-!
Connections over sockets: a socket is a transport, and opening a connection opens one.
-/

namespace GenericNetlink

namespace Kernel

/-- A receive that succeeds leaves the inbox as the inbox's own operation does. -/
theorem receive_ok {peeks : Bool} {size : Nat} {k l : Kernel} {b : Bytes}
    (h : k.receive peeks size = (.ok b, l)) :
    (if peeks then k.inbox.peek size else k.inbox.receive size) = (.ok b, l.inbox) := by
  simp only [receive] at h
  split at h
  · simp at h
  · obtain ⟨result, state⟩ := Prod.mk.inj h
    exact Prod.ext result (congrArg (·.inbox) state)

end Kernel

namespace Socket

theorem call_ok {α : Type} {f : Kernel → Except Errno α × Kernel} {s t : Socket} {a : α}
    (h : s.call f = (.ok a, t)) : f s.kernel = (.ok a, t.kernel) := by
  unfold call at h
  split at h
  · obtain ⟨result, state⟩ := Prod.mk.inj h
    exact Prod.ext result (congrArg (·.kernel) state)
  · simp at h

instance : Transport Socket where
  send datagram := call (Kernel.perform (.send datagram 0))
  peek size := call (Kernel.receive true size)
  receive size := call (Kernel.receive false size)
  close := close
  waiting s := s.kernel.inbox.length
  nextSize s := s.kernel.inbox.nextSize
  peek_ok {size s t shown} h := by
    obtain ⟨hle, same⟩ := Inbox.peek_ok (Kernel.receive_ok (call_ok h))
    exact ⟨hle, congrArg Inbox.nextSize same, congrArg List.length same⟩
  receive_ok {size s t taken} h := Inbox.receive_ok (Kernel.receive_ok (call_ok h))

end Socket

namespace Connection

/-- Opens a socket and a connection over it, whose first request will carry the given number. The
connection speaks in the byte order of the host. -/
def openOn (settings : Settings) (sequence : UInt32) (k : Kernel) :
    Except (Error × Kernel) (Connection Socket) := do
  let socket ← Socket.openOn settings k
  let portId := match settings.portSource with
    | .process => k.processId
    | .bound => socket.portId
  return { toHost := k.toHost, transport := socket, sequence, portId }

end Connection

end GenericNetlink
