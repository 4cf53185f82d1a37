import GenericNetlink.Socket.Transport

/-!
Opening a socket.

A plan is followed call by call, up to the first required one that fails (`Kernel.follow_eq`). So
opening goes one of three ways (`Socket.Opening`): the socket is refused, or it is created and given
up again, or all of the plan is made and the socket is open. Where no call fails it is open
(`Socket.openOn_of_quiet`).
-/

namespace GenericNetlink

namespace Settings

/-- What settings plan for a socket: to give it an address, to ask for the address, and to set the
options that they give. Explanations are asked for, but not required. -/
inductive Plans (s : Settings) : PlannedCall → Prop
  | bind : Plans s ⟨.bindAnywhere, true⟩
  | getsockname : Plans s ⟨.getsockname, true⟩
  | extendedAck : s.extendedAck = true → Plans s ⟨.setsockopt (.extendedAck 1), false⟩
  | receiveTimeout {d : Duration} : s.receiveTimeout = some d →
      Plans s ⟨.setsockopt (.receiveTimeout d.toTimeval), true⟩
  | sendTimeout {d : Duration} : s.sendTimeout = some d →
      Plans s ⟨.setsockopt (.sendTimeout d.toTimeval), true⟩
  | receiveBuffer {n : UInt64} : s.receiveBuffer = some n →
      Plans s ⟨.setsockopt (.receiveBuffer (bufferSize n)), true⟩

theorem mem_plan_iff {s : Settings} {p : PlannedCall} : p ∈ s.plan ↔ s.Plans p := by
  constructor
  · intro hp
    simp only [plan, List.mem_append, Option.mem_toList, Option.map_eq_some_iff] at hp
    rcases hp with (((hp | hp) | ⟨d, hd, rfl⟩) | ⟨d, hd, rfl⟩) | ⟨n, hn, rfl⟩
    · rw [List.mem_cons, List.mem_singleton] at hp
      rcases hp with rfl | rfl
      · exact .bind
      · exact .getsockname
    · split at hp
      · next hack =>
        obtain rfl := List.mem_singleton.1 hp
        exact .extendedAck hack
      · simp at hp
    · exact .receiveTimeout hd
    · exact .sendTimeout hd
    · exact .receiveBuffer hn
  · intro hp
    cases hp with
    | bind => simp [plan]
    | getsockname => simp [plan]
    | extendedAck hack => simp [plan, hack]
    | receiveTimeout hd => simp [plan, hd]
    | sendTimeout hd => simp [plan, hd]
    | receiveBuffer hn => simp [plan, hn]

/-- A plan gives the socket an address, asks for it, and sets options. -/
theorem call_of_mem_plan {s : Settings} {u : SystemCall}
    (hu : u ∈ s.plan.map PlannedCall.call) :
    u = .bindAnywhere ∨ u = .getsockname ∨ ∃ o, u = .setsockopt o := by
  obtain ⟨p, hp, rfl⟩ := List.mem_map.1 hu
  cases mem_plan_iff.1 hp with
  | bind => exact Or.inl rfl
  | getsockname => exact Or.inr (Or.inl rfl)
  | _ => exact Or.inr (Or.inr ⟨_, rfl⟩)

end Settings

namespace Kernel

variable {k : Kernel}

/-- No call fails, as long as the socket is open. -/
def Quiet (k : Kernel) : Prop := ∀ n op, k.faults n op = none

theorem check_of_live (h : k.live = true) (call : SystemCall) :
    k.check call = Errno.orDone (k.fault call.operation) := by
  simp only [check, h, if_true]

/-- The calls that following a plan makes are the first ones of the plan, and all of them if it
succeeds. Nothing but the record of calls changes. -/
theorem follow_eq (plan : List PlannedCall) (k : Kernel) :
    ∃ made, made <+: plan.map PlannedCall.call ∧
      (k.follow plan).2 = { k with calls := k.calls ++ made } ∧
      ((k.follow plan).1 = .ok () → made = plan.map PlannedCall.call) := by
  induction plan generalizing k with
  | nil => exact ⟨[], List.prefix_rfl, by simp [follow], fun _ => rfl⟩
  | cons p plan ih =>
    obtain ⟨made, hprefix, hstate, hall⟩ := ih (k.record p.call)
    -- the call is recorded, and then the rest is followed or not
    have hgoes : k.follow (p :: plan) = (k.record p.call).follow plan ∨
        ∃ e, k.follow (p :: plan) = (.error e, k.record p.call) := by
      simp only [follow, perform]
      cases k.check p.call with
      | ok _ => exact Or.inl rfl
      | error e =>
        cases p.required with
        | false => exact Or.inl rfl
        | true => exact Or.inr ⟨e, rfl⟩
    rcases hgoes with hgoes | ⟨e, hstops⟩
    · refine ⟨p.call :: made, List.cons_prefix_cons.2 ⟨rfl, hprefix⟩, ?_, ?_⟩
      · rw [hgoes, hstate]
        simp [record]
      · rw [hgoes]
        exact fun hok => congrArg _ (hall hok)
    · refine ⟨[p.call], List.cons_prefix_cons.2 ⟨rfl, List.nil_prefix⟩, ?_, ?_⟩
      · rw [hstops]
        rfl
      · rw [hstops]
        simp

/-- Where no call fails all of a plan is followed. -/
theorem follow_of_quiet (plan : List PlannedCall) (hquiet : k.Quiet) (hlive : k.live = true) :
    (k.follow plan).1 = .ok () := by
  induction plan generalizing k with
  | nil => rfl
  | cons p plan ih =>
    have hcheck : k.check p.call = .ok () := by
      rw [check_of_live hlive]
      exact congrArg Errno.orDone (hquiet _ _)
    simp only [follow, perform, hcheck]
    exact ih (k := k.record p.call) hquiet hlive

theorem openSocket_of_fault {e : Errno} (h : k.fault .socket = some e) :
    k.openSocket = (.error e, k.record .openSocket) := by
  simp only [openSocket, h]

theorem openSocket_of_none (h : k.fault .socket = none) :
    k.openSocket = (.ok (), { k.record .openSocket with live := true }) := by
  simp only [openSocket, h]

end Kernel

namespace Socket

/-- The socket that is opened if no call fails that matters. -/
def opened (settings : Settings) (k : Kernel) : Socket where
  kernel :=
    { k with
      calls := k.calls ++ .openSocket :: settings.plan.map PlannedCall.call
      live := true }
  isOpen := true
  portId := k.port

/-- What opening a socket comes to: it is refused, and nothing else is called; it is created, a call
of the plan fails and it is closed; or all calls of the plan are made. -/
inductive Opening (settings : Settings) (k : Kernel) : Except (Error × Kernel) Socket → Prop
  | refused {e : Errno} : k.fault .socket = some e →
      Opening settings k (.error (.socket e, k.record .openSocket))
  | givenUp {e : Errno} {made : List SystemCall} : k.fault .socket = none →
      made <+: settings.plan.map PlannedCall.call →
      Opening settings k (.error (.socket e,
        { k with calls := k.calls ++ .openSocket :: (made ++ [.close]), live := false }))
  | opened : k.fault .socket = none → Opening settings k (.ok (opened settings k))

theorem opening (settings : Settings) (k : Kernel) : Opening settings k (openOn settings k) := by
  cases hf : k.fault .socket with
  | some e =>
    rw [openOn, Kernel.openSocket_of_fault hf]
    exact .refused hf
  | none =>
    obtain ⟨made, hprefix, hstate, hall⟩ :=
      Kernel.follow_eq settings.plan { k.record .openSocket with live := true }
    rw [openOn, Kernel.openSocket_of_none hf]
    simp only
    rcases hfollow : Kernel.follow settings.plan { k.record .openSocket with live := true }
      with ⟨e | _, l⟩
    · rw [hfollow] at hstate
      obtain rfl : l = _ := hstate
      simpa [Kernel.close, Kernel.record] using Opening.givenUp (e := e) hf hprefix
    · rw [hfollow] at hstate hall
      obtain rfl : l = _ := hstate
      obtain rfl := hall rfl
      have hopened : Opening settings k (.ok (Socket.opened settings k)) := .opened hf
      simpa [Kernel.record, Socket.opened] using hopened

/-- Where no call fails the socket is opened. -/
theorem openOn_of_quiet {settings : Settings} {k : Kernel} (hquiet : k.Quiet) :
    openOn settings k = .ok (opened settings k) := by
  have hfollow := Kernel.follow_of_quiet settings.plan
    (k := { k.record .openSocket with live := true }) hquiet rfl
  have hopen : ∃ s, openOn settings k = .ok s := by
    rw [openOn, Kernel.openSocket_of_none (hquiet _ _)]
    simp only
    rcases hf : Kernel.follow settings.plan { k.record .openSocket with live := true }
      with ⟨e | _, l⟩
    · rw [hf] at hfollow
      exact absurd hfollow (by simp)
    · exact ⟨_, rfl⟩
  obtain ⟨s, hs⟩ := hopen
  have hopening := opening settings k
  rw [hs] at hopening ⊢
  cases hopening with
  | opened _ => rfl

theorem call_of_closed {α : Type} (f : Kernel → Except Errno α × Kernel) {s : Socket}
    (h : s.isOpen = false) : s.call f = (.error .badDescriptor, s) := by
  simp [call, h]

theorem call_of_open {α : Type} (f : Kernel → Except Errno α × Kernel) {s : Socket}
    (h : s.isOpen = true) :
    s.call f = ((f s.kernel).1, { s with kernel := (f s.kernel).2 }) := by
  simp [call, h]

end Socket

namespace Connection

variable {settings : Settings} {sequence : UInt32} {k k' : Kernel} {e : Error}
  {c : Connection Socket}

/-- The connection over the socket that is opened if no call fails that matters. -/
def opened (settings : Settings) (sequence : UInt32) (k : Kernel) : Connection Socket where
  toHost := k.toHost
  transport := Socket.opened settings k
  sequence
  portId :=
    match settings.portSource with
    | .process => k.processId
    | .bound => k.port

/-- A connection is not opened exactly if its socket is not. -/
theorem openOn_eq_error_iff :
    openOn settings sequence k = .error (e, k') ↔ Socket.openOn settings k = .error (e, k') := by
  rw [openOn]
  cases Socket.openOn settings k <;> simp [bind, Except.bind, pure, Except.pure]

theorem openOn_of_socket (h : Socket.openOn settings k = .ok (Socket.opened settings k)) :
    openOn settings sequence k = .ok (opened settings sequence k) := by
  rw [openOn, h]; rfl

/-- If it is opened then its socket was created and all calls of the plan were made. -/
theorem eq_opened_of_openOn (h : openOn settings sequence k = .ok c) :
    k.fault .socket = none ∧ c = opened settings sequence k := by
  have hopening := Socket.opening settings k
  cases hs : Socket.openOn settings k with
  | error failed =>
    have hfailed : openOn settings sequence k = .error (failed.1, failed.2) :=
      openOn_eq_error_iff.2 hs
    rw [hfailed] at h
    simp at h
  | ok s =>
    rw [hs] at hopening
    cases hopening with
    | opened hf => exact ⟨hf, (Except.ok.inj ((openOn_of_socket hs).symm.trans h)).symm⟩

end Connection

end GenericNetlink
