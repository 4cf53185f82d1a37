import GenericNetlink.Proofs.Agreement
import GenericNetlink.Proofs.Socket.Opening
import GenericNetlink.Transport.Script

/-!
A socket behaves like a script.

The two keep the books differently: a socket gives its descriptor away when it is closed and makes
no call without one, and a script is told that it has been closed. Where a script holds what the
kernel holds, and meets its faults (`Script.Plays`), the two agree on every call all the same
(`Socket.agree_mirrors`), also if datagrams arrive and faults come and go in between
(`Mirrors.change`). So connections over them cannot be told apart (`trace_eq_trace_of_plays`).
-/

namespace GenericNetlink

/-! ### What happens between calls, and what is seen of them -/

/-- What happens to a transport between two calls on it: a datagram arrives, or from now on sending
or closing fails, or no longer does. -/
inductive Change where
  | arrival (d : Delivery)
  | sendFault (fault : Option Errno)
  | closeFault (fault : Option Errno)
  deriving DecidableEq

/-- A transport that is watched while things happen to it. What is seen are the datagrams that were
to be sent, and the sizes of the buffers for those to be peeked at and received, each as the system
call that a socket makes for it. -/
class Watched (σ : Type) where
  change : Change → σ → σ
  exchanges : σ → List SystemCall

/-- Sending and receiving, which exchange datagrams. -/
def SystemCall.isExchange : SystemCall → Bool
  | .send .. | .recv .. => true
  | _ => false

/-- The system call for a call on a transport. -/
def Event.exchange : Event → Option SystemCall
  | .sent datagram | .unsent datagram => some (.send datagram 0)
  | .peeked size => some (.recv size SystemCall.peekFlag)
  | .received size => some (.recv size 0)
  | .closed => none

/-- The script behind a change. -/
def Script.change : Change → Script → Script
  | .arrival d, s => { s with inbox := s.inbox ++ [d] }
  | .sendFault fault, s => { s with sendFault := fault }
  | .closeFault fault, s => { s with closeFault := fault }

/-- Closing leaves what waits. -/
theorem Script.inbox_close (t : Script) : t.close.2.inbox = t.inbox := by
  rw [close]
  split <;> rfl

namespace Kernel

/-- The kernel behind a change. -/
def change : Change → Kernel → Kernel
  | .arrival d, k => { k with inbox := k.inbox ++ [d] }
  | .sendFault fault, k => k.setFault .send fault
  | .closeFault fault, k => k.setFault .close fault

/-- The calls that exchange datagrams. -/
def exchanges (k : Kernel) : List SystemCall := k.calls.filter SystemCall.isExchange

@[simp] theorem exchanges_record (call : SystemCall) (k : Kernel) :
    (k.record call).exchanges = k.exchanges ++ if call.isExchange then [call] else [] := by
  cases h : call.isExchange <;> simp [exchanges, record, h]

end Kernel

instance : Watched Socket where
  change change s := { s with kernel := s.kernel.change change }
  exchanges s := s.kernel.exchanges

instance : Watched (Logged Script) where
  change change s := { s with inner := s.inner.change change }
  exchanges s := s.events.filterMap Event.exchange

namespace Connection

/-- A step of a session: a call on the connection, or a change beneath it. -/
inductive Step where
  | call (call : Call)
  | change (change : Change)
  deriving DecidableEq

/-- What comes of a call. -/
inductive Answer where
  | reply (result : Except Error (List Message))
  | closing (result : Except Error Unit)

/-- What is seen of a call: what came of it, the next sequence number and whether the connection is
closed behind it, and the datagrams and buffers that were exchanged for it. -/
structure Observation where
  answer : Answer
  sequence : UInt32
  closed : Bool
  exchanges : List SystemCall

variable {σ : Type} [Transport σ]

/-- What comes of a call on a connection. -/
def answer (c : Connection σ) : Call → Answer
  | .request m => .reply (c.request m).1
  | .close => .closing c.close.1

variable [Watched σ]

/-- What is seen of the calls in a session, one after the other. -/
def trace (c : Connection σ) : List Step → List Observation
  | [] => []
  | .call call :: steps =>
    { answer := c.answer call
      sequence := (c.next call).sequence
      closed := (c.next call).closed
      exchanges :=
        (Watched.exchanges (c.next call).transport).drop (Watched.exchanges c.transport).length } ::
      trace (c.next call) steps
  | .change change :: steps =>
    trace { c with transport := Watched.change change c.transport } steps

end Connection

/-! ### A socket and a script -/

/-- A script holds the datagrams of a kernel and meets its faults when sending and closing; the
faults of peeking and receiving stand among the datagrams. -/
structure Script.Plays (t : Script) (k : Kernel) : Prop where
  inbox : t.inbox = k.inbox
  sendFault (n : Nat) : k.faults n .send = t.sendFault
  closeFault (n : Nat) : k.faults n .close = t.closeFault
  recvFault (n : Nat) : k.faults n .recv = none

namespace Socket

/-- A socket, open or closed, and a script in its place that holds what the kernel holds. What the
socket has exchanged is what had been exchanged when the script took its place, and behind that what
the script has. -/
structure Mirrors (before : List SystemCall) (closed : Bool) (s : Socket) (t : Logged Script) :
    Prop where
  plays : t.inner.Plays s.kernel
  isOpen : s.isOpen = !closed
  live : s.kernel.live = !closed
  closed : t.inner.closed = closed
  exchanges : Watched.exchanges s = before ++ Watched.exchanges t

variable {before : List SystemCall} {closed : Bool} {s : Socket} {t : Logged Script}

/-- A call of the socket and an event of the script that stand for the same exchange, or for none,
are remembered alike. -/
theorem Mirrors.exchanges_append (h : Mirrors before closed s t) (call : SystemCall) (event : Event)
    (hsame : (if call.isExchange then [call] else []) = event.exchange.toList) :
    (s.kernel.record call).exchanges =
      before ++ (t.events ++ [event]).filterMap Event.exchange := by
  have hevent : [event].filterMap Event.exchange = event.exchange.toList := by
    cases he : event.exchange <;> simp [he]
  rw [Kernel.exchanges_record, hsame, List.filterMap_append, hevent, ← List.append_assoc]
  exact congrArg (· ++ event.exchange.toList) h.exchanges

/-- They agree on sending. -/
theorem Mirrors.send (h : Mirrors before false s t) (datagram : Bytes) :
    Transport.Alike (Mirrors before false) (Transport.send datagram s)
      (Transport.send datagram t) := by
  have hcheck : s.kernel.check (.send datagram 0) = Errno.orDone t.inner.sendFault := by
    rw [Kernel.check_of_live h.live]
    exact congrArg Errno.orDone (h.plays.sendFault _)
  have hreal : Transport.send datagram s = (Errno.orDone t.inner.sendFault,
      { s with kernel := s.kernel.record (.send datagram 0) }) := by
    rw [← hcheck]
    exact call_of_open _ h.isOpen
  rw [hreal]
  refine ⟨rfl, ⟨h.plays.inbox, h.plays.sendFault, h.plays.closeFault, h.plays.recvFault⟩,
    h.isOpen, h.live, h.closed, h.exchanges_append _ (Logged.sending datagram _) ?_⟩
  cases Errno.orDone t.inner.sendFault <;> rfl

/-- They agree on peeking and on receiving: both hand out what their inbox gives. -/
theorem Mirrors.receiving (h : Mirrors before false s t) (peeks : Bool) {size : Nat} {event : Event}
    (hsame : event.exchange = some (.recv size (if peeks then SystemCall.peekFlag else 0)))
    {take : Inbox → Except Errno Bytes × Inbox}
    (htake : take = if peeks then Inbox.peek size else Inbox.receive size) :
    Transport.Alike (Mirrors before false) (s.call (Kernel.receive peeks size))
      (Logged.call (fun _ => event)
        (fun u : Script => ((take u.inbox).1, { u with inbox := (take u.inbox).2 })) t) := by
  have hcheck :
      s.kernel.check (.recv size (if peeks then SystemCall.peekFlag else 0)) = .ok () := by
    rw [Kernel.check_of_live h.live]
    exact congrArg Errno.orDone (h.plays.recvFault _)
  have hreal : s.kernel.receive peeks size = ((take s.kernel.inbox).1,
      { s.kernel.record (.recv size (if peeks then SystemCall.peekFlag else 0)) with
        inbox := (take s.kernel.inbox).2 }) := by
    rw [Kernel.receive, hcheck, htake]
    cases peeks <;> rfl
  rw [call_of_open _ h.isOpen, hreal, ← h.plays.inbox]
  refine ⟨rfl, ⟨rfl, h.plays.sendFault, h.plays.closeFault, h.plays.recvFault⟩,
    h.isOpen, h.live, h.closed, h.exchanges_append _ event ?_⟩
  rw [hsame]
  rfl

/-- They agree on closing, which the socket passes on to the kernel the first time only. -/
theorem Mirrors.close (h : Mirrors before closed s t) :
    Transport.Alike (Mirrors before true) (Transport.close s) (Transport.close t) := by
  have hscript : Transport.close t =
      ((t.inner.close).1, { inner := t.inner.close.2, events := t.events ++ [.closed] }) := rfl
  cases closed with
  | true =>
    -- the kernel is not called
    have hreal : Transport.close s = (.error .badDescriptor, { s with isOpen := false }) := by
      show Socket.close s = _
      rw [Socket.close, call_of_closed _ h.isOpen]
    have hclosed : t.inner.close = (.error .badDescriptor, t.inner) := by
      rw [Script.close, if_pos h.closed]
    rw [hreal, hscript, hclosed]
    refine ⟨rfl, h.plays, rfl, h.live, h.closed, ?_⟩
    simpa [Watched.exchanges, List.filterMap_cons, Event.exchange] using h.exchanges
  | false =>
    have hcheck : s.kernel.check .close = Errno.orDone t.inner.closeFault := by
      rw [Kernel.check_of_live h.live]
      exact congrArg Errno.orDone (h.plays.closeFault _)
    have hreal : Transport.close s = (Errno.orDone t.inner.closeFault,
        { s with kernel := { s.kernel.record .close with live := false }, isOpen := false }) := by
      show Socket.close s = _
      rw [Socket.close, call_of_open _ h.isOpen, ← hcheck]
      rfl
    have hclosed : t.inner.close =
        (Errno.orDone t.inner.closeFault, { t.inner with closed := true }) := by
      rw [Script.close, if_neg (by simp [h.closed])]
    rw [hreal, hscript, hclosed]
    exact ⟨rfl, ⟨h.plays.inbox, h.plays.sendFault, h.plays.closeFault, h.plays.recvFault⟩,
      rfl, rfl, rfl, h.exchanges_append .close .closed rfl⟩

/-- A socket and the script in its place cannot be told apart by calls on them. -/
theorem agree_mirrors (before : List SystemCall) :
    Transport.Agree (Mirrors before) where
  send datagram _ _ h := h.send datagram
  peek _ _ _ h := h.receiving true rfl rfl
  receive _ _ _ h := h.receiving false rfl rfl
  close h := h.close

/-- The script stays in place of the socket if the same happens to both. -/
theorem Mirrors.change (h : Mirrors before closed s t) (change : Change) :
    Mirrors before closed (Watched.change change s) (Watched.change change t) := by
  refine ⟨?_, h.isOpen, ?_, ?_, ?_⟩
  · cases change with
    | arrival d =>
      exact ⟨congrArg (· ++ [d]) h.plays.inbox, h.plays.sendFault, h.plays.closeFault,
        h.plays.recvFault⟩
    | sendFault fault =>
      exact ⟨h.plays.inbox, fun _ => rfl, h.plays.closeFault, h.plays.recvFault⟩
    | closeFault fault =>
      exact ⟨h.plays.inbox, h.plays.sendFault, fun _ => rfl, h.plays.recvFault⟩
  · cases change <;> exact h.live
  · cases change <;> exact h.closed
  · cases change <;> exact h.exchanges

/-- A plan exchanges no datagrams. -/
theorem exchanges_opened (settings : Settings) (k : Kernel) :
    (opened settings k).kernel.exchanges = k.exchanges := by
  have hplan : (settings.plan.map PlannedCall.call).filter SystemCall.isExchange = [] := by
    refine List.filter_eq_nil_iff.2 fun u hu => ?_
    rcases Settings.call_of_mem_plan hu with rfl | rfl | ⟨o, rfl⟩ <;>
      simp [SystemCall.isExchange, SystemCall.bindAnywhere]
  simp [Kernel.exchanges, opened, List.filter_append, hplan, SystemCall.openSocket,
    SystemCall.isExchange]

/-- A socket that has just been opened, and a script that plays the kernel. -/
theorem mirrors_opened {settings : Settings} {k : Kernel} {start : Script} (h : start.Plays k)
    (hclosed : start.closed = false) :
    Mirrors (opened settings k).kernel.exchanges false (opened settings k) { inner := start } :=
  ⟨⟨h.inbox, h.sendFault, h.closeFault, h.recvFault⟩, rfl, rfl, hclosed,
    (List.append_nil _).symm⟩

end Socket

namespace Connection

variable {before : List SystemCall} {c : Connection Socket} {d : Connection (Logged Script)}

/-- The same is seen of a connection over a socket and of one over the script in its place. -/
theorem trace_eq_trace (h : Matches (Socket.Mirrors before) c d) (steps : List Step) :
    c.trace steps = d.trace steps := by
  induction steps generalizing c d with
  | nil => rfl
  | cons step steps ih =>
    cases step with
    | change change =>
      exact ih ⟨h.toHost, h.sequence, h.portId, h.closed, h.transport.change change⟩
    | call call =>
      -- a call comes to the same, and leaves a script in place of a socket
      obtain ⟨hanswer, hnext⟩ : c.answer call = d.answer call ∧
          Matches (Socket.Mirrors before) (c.next call) (d.next call) := by
        cases call with
        | request m =>
          obtain ⟨hresult, hnext⟩ := h.request (Socket.agree_mirrors before) m
          exact ⟨congrArg Answer.reply hresult, hnext⟩
        | close =>
          obtain ⟨hresult, hnext⟩ := h.close (Socket.agree_mirrors before)
          exact ⟨congrArg Answer.closing hresult, hnext⟩
      -- on the side of the socket, more is dropped by what had been exchanged before
      have hexchanges : (Watched.exchanges (c.next call).transport).drop
            (Watched.exchanges c.transport).length =
          (Watched.exchanges (d.next call).transport).drop
            (Watched.exchanges d.transport).length := by
        rw [hnext.transport.exchanges, h.transport.exchanges, List.length_append,
          List.drop_append, Nat.add_sub_cancel_left, List.drop_of_length_le (by omega),
          List.nil_append]
      simp only [trace, hanswer, hnext.sequence, hnext.closed, ih hnext, hexchanges]

/-- A connection over a script, whose calls are remembered. -/
def scripted (host : Host) (start : Script) (sequence portId : UInt32) :
    Connection (Logged Script) where
  toHost := host
  transport := { inner := start }
  sequence
  portId

/-- The script takes the place of the socket that has just been opened. -/
theorem matches_scripted {settings : Settings} {sequence : UInt32} {k : Kernel} {start : Script}
    (hplays : start.Plays k) (hclosed : start.closed = false) :
    Matches (Socket.Mirrors (Socket.opened settings k).kernel.exchanges)
      (opened settings sequence k)
      (scripted k.toHost start sequence (opened settings sequence k).portId) :=
  ⟨rfl, rfl, rfl, rfl, Socket.mirrors_opened hplays hclosed⟩

/-- A connection that is opened on a kernel, and one over a script that holds the same datagrams and
meets the same faults, are seen to do the same in every session: each call comes to the same, leaves
the same sequence number, closes or does not, and for it the same datagrams are sent and the same
buffers offered. -/
theorem trace_eq_trace_of_plays {settings : Settings} {sequence : UInt32} {k : Kernel}
    {c : Connection Socket} (hopen : openOn settings sequence k = .ok c) {start : Script}
    (hplays : start.Plays k) (hclosed : start.closed = false) (steps : List Step) :
    c.trace steps = (scripted c.toHost start sequence c.portId).trace steps := by
  obtain ⟨-, rfl⟩ := eq_opened_of_openOn hopen
  exact trace_eq_trace (matches_scripted hplays hclosed) steps

/-- A request cannot be sent, and the next one is answered by what is no message. Closing fails and
is tried again, and one more request follows. -/
theorem trace_eq_trace_of_failing_close :
    let m := Message.make 0x1a MessageFlag.request [1]
    let k : Kernel := { order := .little, processId := 100, port := 200, descriptor := 5 }
    let c := opened { portSource := .bound } 7 k
    let steps : List Step := [.change (.sendFault (some .timedOut)), .call (.request m),
      .change (.sendFault none), .change (.arrival (.ofBytes [1])), .call (.request m),
      .change (.closeFault (some .timedOut)), .call .close, .call .close, .call (.request m)]
    openOn { portSource := .bound } 7 k = .ok c ∧ Script.Plays {} k ∧
      c.trace steps = (scripted k.toHost {} 7 200).trace steps ∧
      (c.trace steps).map (fun seen => (seen.sequence, seen.closed)) =
        [(8, false), (9, false), (9, true), (9, true), (9, true)] := by
  intro m k c steps
  have hopen : openOn { portSource := .bound } 7 k = .ok c := openOn_of_socket rfl
  have hplays : Script.Plays {} k := ⟨rfl, fun _ => rfl, fun _ => rfl, fun _ => rfl⟩
  refine ⟨hopen, hplays, trace_eq_trace_of_plays hopen hplays rfl steps, ?_⟩
  simp [steps, trace, next, close, request_sequence, c, opened]

end Connection

end GenericNetlink
