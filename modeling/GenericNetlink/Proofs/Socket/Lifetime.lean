import GenericNetlink.Proofs.Receiving
import GenericNetlink.Proofs.Session.Basic
import GenericNetlink.Proofs.Socket.Opening
import GenericNetlink.Query

/-!
The lifetime of a socket.

A socket that was created is used, and then it is closed, once, and nothing is called on it
afterwards (`Kernel.Lifetime`). Three owners see to that: opening gives a socket up whose plan
fails, a connection may be closed, and what is still open is closed when it is dropped. Whatever
calls fail, closing among them, each call on a socket keeps it `Socket.Lived`
(`Lived.call`, `Lived.close`), so any use of it comes to one lifetime
(`descriptor_closed_once`).
-/

namespace GenericNetlink

/-- A call that neither creates a socket nor closes it. -/
def SystemCall.IsUse (call : SystemCall) : Prop :=
  call.operation ≠ .socket ∧ call.operation ≠ .close

instance : DecidablePred SystemCall.IsUse := fun _ => inferInstanceAs (Decidable (_ ∧ _))

namespace Kernel

/-- What has been called from one state of the kernel to another: a socket was refused, or it was
created, used, and closed once behind all uses. -/
inductive Lifetime (k k' : Kernel) : Prop
  | refused {e : Errno} : k.fault .socket = some e → k'.calls = k.calls ++ [.openSocket] →
      Lifetime k k'
  | spent {uses : List SystemCall} : k.fault .socket = none →
      k'.calls = k.calls ++ .openSocket :: (uses ++ [.close]) → (∀ u ∈ uses, u.IsUse) →
      Lifetime k k'

/-- Peeking and receiving are one call each. -/
theorem calls_receive (peeks : Bool) (size : Nat) (k : Kernel) :
    ∃ u, u.IsUse ∧ (k.receive peeks size).2.calls = k.calls ++ [u] := by
  refine ⟨.recv size (if peeks then SystemCall.peekFlag else 0), by simp [SystemCall.IsUse,
    SystemCall.operation], ?_⟩
  simp only [receive]
  split <;> rfl

end Kernel

/-- The calls of a plan use the socket. -/
theorem Settings.isUse_of_mem_plan (s : Settings) :
    ∀ u ∈ s.plan.map PlannedCall.call, u.IsUse := by
  intro u hu
  rcases call_of_mem_plan hu with rfl | rfl | ⟨o, rfl⟩
  · decide
  · decide
  · cases o <;> simp [SystemCall.IsUse, SystemCall.operation, SocketOption.operation]

namespace Socket

/-- What has been called since the socket was created, behind the calls made before: uses, and if
the socket is no longer open then it has been closed behind them. -/
structure Lived (before : List SystemCall) (s : Socket) : Prop where
  used : s.isOpen = true → ∃ uses, s.kernel.calls = before ++ .openSocket :: uses ∧
    ∀ u ∈ uses, u.IsUse
  closed : s.isOpen = false → ∃ uses, s.kernel.calls = before ++ .openSocket :: (uses ++ [.close]) ∧
    ∀ u ∈ uses, u.IsUse

variable {before : List SystemCall} {s : Socket}

@[simp] theorem isOpen_call {α : Type} (f : Kernel → Except Errno α × Kernel) :
    (s.call f).2.isOpen = s.isOpen := by
  cases h : s.isOpen with
  | true => rw [call_of_open f h, h]
  | false => rw [call_of_closed f h, h]

/-- A use of the socket is one more use, and none if it is closed. -/
theorem Lived.call {α : Type} {f : Kernel → Except Errno α × Kernel} (h : Lived before s)
    (hf : ∀ k, ∃ u, u.IsUse ∧ (f k).2.calls = k.calls ++ [u]) : Lived before (s.call f).2 := by
  cases hopen : s.isOpen with
  | false =>
    rw [call_of_closed f hopen]
    exact h
  | true =>
    obtain ⟨u, hu, hcalls⟩ := hf s.kernel
    obtain ⟨uses, hbefore, huses⟩ := h.used hopen
    rw [call_of_open f hopen]
    refine ⟨fun _ => ⟨uses ++ [u], ?_, ?_⟩, fun hclosed => ?_⟩
    · simp [hcalls, hbefore]
    · exact List.forall_mem_append.2 ⟨huses, List.forall_mem_singleton.2 hu⟩
    · exact absurd (hopen.symm.trans hclosed) (by simp)

@[simp] theorem isOpen_close (s : Socket) : s.close.2.isOpen = false := rfl

/-- Closing is called on an open socket and on no other one. -/
theorem Lived.close (h : Lived before s) : Lived before s.close.2 := by
  refine ⟨fun hopen => absurd hopen (by simp), fun _ => ?_⟩
  cases hopen : s.isOpen with
  | false =>
    have hsame : s.close.2.kernel = s.kernel := by rw [Socket.close, call_of_closed _ hopen]
    rw [hsame]
    exact h.closed hopen
  | true =>
    obtain ⟨uses, hbefore, huses⟩ := h.used hopen
    refine ⟨uses, ?_, huses⟩
    rw [Socket.close, call_of_open _ hopen]
    simp [Kernel.close, Kernel.record, hbefore]

/-- Dropped, the socket has been closed. -/
theorem Lived.release (h : Lived before s) :
    ∃ uses, s.release.calls = before ++ .openSocket :: (uses ++ [.close]) ∧ ∀ u ∈ uses, u.IsUse :=
  h.close.closed (isOpen_close s)

/-- Whatever is called on a socket, it stays so. -/
theorem invariant_lived (before : List SystemCall) : Transport.Invariant (Lived before) where
  peek size _ h := h.call (Kernel.calls_receive true size)
  receive size _ h := h.call (Kernel.calls_receive false size)
  send datagram _ h :=
    h.call fun _ => ⟨.send datagram 0, by simp [SystemCall.IsUse, SystemCall.operation], rfl⟩
  close h := h.close

/-- A socket that is not open stays so. -/
theorem invariant_isOpen : Transport.Invariant fun s : Socket => s.isOpen = false where
  peek _ _ h := (isOpen_call _).trans h
  receive _ _ h := (isOpen_call _).trans h
  send _ _ h := (isOpen_call _).trans h
  close _ := rfl

theorem lived_opened (settings : Settings) (k : Kernel) :
    Lived k.calls (opened settings k) :=
  ⟨fun _ => ⟨_, rfl, settings.isUse_of_mem_plan⟩, fun h => absurd h (by simp [opened])⟩

/-- An opening that fails leaves no socket behind. -/
theorem lifetime_of_openOn_error {settings : Settings} {k k' : Kernel} {e : Error}
    (h : openOn settings k = .error (e, k')) : k.Lifetime k' := by
  have hopening := opening settings k
  rw [h] at hopening
  cases hopening with
  | refused hf => exact .refused hf rfl
  | givenUp hf hmade =>
    exact .spent hf rfl fun u hu => settings.isUse_of_mem_plan u (hmade.subset hu)

end Socket

namespace Connection

variable {c : Connection Socket}

/-- After a closing call the socket is not open. -/
theorem isOpen_after {calls : List Call} (h : Call.close ∈ calls) :
    (c.after calls).transport.isOpen = false := by
  induction calls generalizing c with
  | nil => simp at h
  | cons call calls ih =>
    cases call with
    | request m => exact ih (by simpa using h)
    | close => exact after_invariant Socket.invariant_isOpen (Socket.isOpen_close _) calls

/-- Closing a closed connection fails and changes nothing. -/
theorem close_of_closed (hclosed : c.closed = true) (hopen : c.transport.isOpen = false) :
    c.close = (.error (.close .badDescriptor), c) := by
  have hcall : Transport.close c.transport = (.error .badDescriptor, c.transport) := by
    show Socket.close c.transport = _
    rw [Socket.close, Socket.call_of_closed _ hopen, ← hopen]
  rw [close, hcall, ← hclosed]
  rfl

/-- The lifetime of a socket ends, at the latest, when its connection is dropped. -/
theorem lifetime_of_lived {k : Kernel} (hf : k.fault .socket = none)
    (h : Socket.Lived k.calls c.transport) : k.Lifetime c.transport.release := by
  obtain ⟨uses, hcalls, huses⟩ := h.release
  exact .spent hf hcalls huses

end Connection

namespace Query

/-- Whichever way a query goes, the socket it was asked over has been closed. -/
theorem lifetime_run (q : Query) (o : Options) (sequence : UInt32) (k : Kernel) :
    k.Lifetime (q.run o sequence k).kernel := by
  rw [run]
  rcases hopen : Connection.openOn o.settings sequence k with ⟨e, k'⟩ | c
  · exact Socket.lifetime_of_openOn_error (Connection.openOn_eq_error_iff.1 hopen)
  obtain ⟨hf, rfl⟩ := Connection.eq_opened_of_openOn hopen
  have hlived : Socket.Lived k.calls (Connection.opened o.settings sequence k).transport :=
    Socket.lived_opened o.settings k
  simp only
  cases q.message (Connection.opened o.settings sequence k).order with
  | error e => exact Connection.lifetime_of_lived hf hlived
  | ok m =>
    have hrequest := (Socket.invariant_lived k.calls).request hlived m
    simp only
    rcases hr : (Connection.opened o.settings sequence k).request m with ⟨e | replies, c⟩
    · rw [hr] at hrequest
      exact Connection.lifetime_of_lived hf hrequest
    · rw [hr] at hrequest
      simp only
      rcases describe c.order replies with ⟨printed, e | _⟩
      · exact Connection.lifetime_of_lived hf hrequest
      · exact Connection.lifetime_of_lived (c := c.close.2) hf hrequest.close

end Query

namespace Socket

/-- Whatever the settings are and whichever calls fail, a socket that is created is closed once,
and nothing is called on it afterwards: if opening it fails, if a connection over it is used in any
way and then dropped, and if a query is asked over it. Closing a connection again fails with a bad
descriptor, and nothing is called for it. -/
theorem descriptor_closed_once (settings : Settings) (sequence : UInt32) (k : Kernel) :
    (∀ e k', openOn settings k = .error (e, k') → k.Lifetime k') ∧
    (∀ e k', Connection.openOn settings sequence k = .error (e, k') → k.Lifetime k') ∧
    (∀ c, Connection.openOn settings sequence k = .ok c → ∀ calls : List Connection.Call,
      k.Lifetime (c.after calls).transport.release ∧
      (Connection.Call.close ∈ calls →
        (c.after calls).close = (.error (.close .badDescriptor), c.after calls))) ∧
    ∀ (q : Query) (o : Query.Options), k.Lifetime (q.run o sequence k).kernel := by
  refine ⟨fun e k' => lifetime_of_openOn_error,
    fun e k' h => lifetime_of_openOn_error (Connection.openOn_eq_error_iff.1 h), ?_,
    fun q o => q.lifetime_run o sequence k⟩
  intro c hopen calls
  obtain ⟨hf, rfl⟩ := Connection.eq_opened_of_openOn hopen
  constructor
  · exact Connection.lifetime_of_lived hf
      (Connection.after_invariant (invariant_lived k.calls) (lived_opened settings k) calls)
  · intro hclose
    exact Connection.close_of_closed ((Connection.after_closed _ calls).2 (Or.inr hclose))
      (Connection.isOpen_after hclose)

/-- A socket that gets no address is given up, and closing it fails. A connection whose socket
receives nothing and cannot be closed is closed, used and closed again. -/
theorem descriptor_closed_once_of_failing_close :
    let nameless : Kernel :=
      { order := .little, processId := 100, port := 200, descriptor := 5
        faults := fun _ op => if op = .getsockname ∨ op = .close then some .timedOut else none }
    let deaf : Kernel :=
      { order := .little, processId := 100, port := 200, descriptor := 5
        faults := fun _ op => if op = .recv ∨ op = .close then some .timedOut else none }
    let m := Message.make 0x1a MessageFlag.request [1]
    let left : Kernel :=
      { nameless with calls := [.openSocket, .bindAnywhere, .getsockname, .close] }
    let c := Connection.opened {} 7 deaf
    let used := c.after [.request m, .close, .close, .request m]
    openOn {} nameless = .error (.socket .timedOut, left) ∧ nameless.Lifetime left ∧
      Connection.openOn {} 7 nameless = .error (.socket .timedOut, left) ∧
      Connection.openOn {} 7 deaf = .ok c ∧ deaf.Lifetime used.transport.release ∧
      Connection.Call.close ∈ [Connection.Call.request m, .close, .close, .request m] ∧
      used.close = (.error (.close .badDescriptor), used) ∧
      deaf.Lifetime ((Query.get "nlctrl").run {} 7 deaf).kernel := by
  intro nameless deaf m left c used
  have hfails : openOn {} nameless = .error (.socket .timedOut, left) := rfl
  have hopen : Connection.openOn {} 7 deaf = .ok c := Connection.openOn_of_socket rfl
  have hclose : Connection.Call.close ∈
      [Connection.Call.request m, .close, .close, .request m] := by decide
  obtain ⟨hgivenUp, -⟩ := descriptor_closed_once {} 7 nameless
  obtain ⟨-, -, hused, hasked⟩ := descriptor_closed_once {} 7 deaf
  obtain ⟨hlifetime, hagain⟩ := hused c hopen [.request m, .close, .close, .request m]
  exact ⟨hfails, hgivenUp _ _ hfails, Connection.openOn_eq_error_iff.2 hfails, hopen, hlifetime,
    hclose, hagain hclose, hasked _ _⟩

end Socket

end GenericNetlink
