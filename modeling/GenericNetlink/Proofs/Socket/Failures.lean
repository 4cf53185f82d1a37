import GenericNetlink.Proofs.Socket.Timeouts

/-!
Openings and the calls that fail.

An opening asks for one operation after the other (`Settings.operations`), and all but one of them
must succeed: a kernel that cannot explain errors will do. The first of the others that fails stops
the opening (`Kernel.StopsAt`), and then the socket is closed if it was created. So an opening has
either made all of its calls, or it has left nothing behind (`Connection.openOn_all_or_nothing`).
-/

namespace GenericNetlink

/-! ### What an opening asks for -/

namespace Settings

/-- Whether an opening with these settings asks for an operation. -/
def asks (s : Settings) : Operation → Bool
  | .socket | .bind | .getsockname => true
  | .extendedAck => s.extendedAck
  | .receiveTimeout => s.receiveTimeout.isSome
  | .sendTimeout => s.sendTimeout.isSome
  | .receiveBuffer => s.receiveBuffer.isSome
  | .send | .recv | .close => false

/-- The operations that an opening asks for, in order. -/
def operations (s : Settings) : List Operation :=
  [.socket, .bind, .getsockname, .extendedAck, .receiveTimeout, .sendTimeout,
    .receiveBuffer].filter s.asks

/-- The calls of an opening that nothing stops. -/
def calls (s : Settings) : List SystemCall := .openSocket :: s.plan.map PlannedCall.call

theorem operations_calls (s : Settings) : s.calls.map SystemCall.operation = s.operations := by
  rcases s with ⟨receiveTimeout, sendTimeout, receiveBuffer, extendedAck, portSource⟩
  cases receiveTimeout <;> cases sendTimeout <;> cases receiveBuffer <;> cases extendedAck <;> rfl

/-- Of a plan all calls must succeed but the one that asks for explanations. -/
theorem required_iff_of_mem_plan {s : Settings} {p : PlannedCall} (hp : p ∈ s.plan) :
    p.required = true ↔ p.call.operation ≠ .extendedAck := by
  cases mem_plan_iff.1 hp with
  | bind | getsockname | extendedAck => decide
  | _ => simp [SystemCall.operation, SocketOption.operation]

/-- The size of the largest receive buffer that the kernel can be asked for. -/
def largestBuffer : Nat := 0x7FFFFFFF

/-- The options that a socket is configured with: that explanations are asked for, the limits on
receiving and on sending in seconds and whole microseconds, as far as the kernel can take the
seconds, and the size of the receive buffer, as far as the kernel can be asked for it. -/
inductive Configures (s : Settings) : SocketOption → Prop
  | extendedAck : s.extendedAck = true → Configures s (.extendedAck 1)
  | receiveTimeout {d : Duration} {t : Timeval} : s.receiveTimeout = some d →
      t.seconds.toInt = (min d.seconds.toNat Duration.mostSeconds : Nat) →
      t.microseconds.toInt = (d.nanoseconds.toNat / 1000 : Nat) → Configures s (.receiveTimeout t)
  | sendTimeout {d : Duration} {t : Timeval} : s.sendTimeout = some d →
      t.seconds.toInt = (min d.seconds.toNat Duration.mostSeconds : Nat) →
      t.microseconds.toInt = (d.nanoseconds.toNat / 1000 : Nat) → Configures s (.sendTimeout t)
  | receiveBuffer {n : UInt64} {size : Int32} : s.receiveBuffer = some n →
      size.toInt = (min n.toNat largestBuffer : Nat) → Configures s (.receiveBuffer size)

theorem toInt_bufferSize (n : UInt64) : (bufferSize n).toInt = (min n.toNat largestBuffer : Nat) :=
  Int32.toInt_ofNat_of_lt (Nat.lt_of_le_of_lt (Nat.min_le_right _ _) (by decide))

/-- The calls of an opening set exactly the options that the socket is configured with. -/
theorem setsockopt_mem_calls_iff {s : Settings} {o : SocketOption} :
    .setsockopt o ∈ s.calls ↔ s.Configures o := by
  constructor
  · intro h
    rcases List.mem_cons.1 h with h | h
    · cases h
    obtain ⟨p, hp, hcall⟩ := List.mem_map.1 h
    cases mem_plan_iff.1 hp with
    | bind | getsockname => cases hcall
    | extendedAck hack =>
      obtain rfl := SystemCall.setsockopt.inj hcall
      exact .extendedAck hack
    | receiveTimeout hd =>
      obtain rfl := SystemCall.setsockopt.inj hcall
      exact .receiveTimeout hd (Duration.seconds_toTimeval _) (Duration.microseconds_toTimeval _)
    | sendTimeout hd =>
      obtain rfl := SystemCall.setsockopt.inj hcall
      exact .sendTimeout hd (Duration.seconds_toTimeval _) (Duration.microseconds_toTimeval _)
    | receiveBuffer hn =>
      obtain rfl := SystemCall.setsockopt.inj hcall
      exact .receiveBuffer hn (toInt_bufferSize _)
  · intro h
    have hplanned {p : PlannedCall} (hp : s.Plans p) : p.call ∈ s.calls :=
      List.mem_cons_of_mem _ (List.mem_map_of_mem (mem_plan_iff.2 hp))
    cases h with
    | extendedAck hack => exact hplanned (.extendedAck hack)
    | receiveTimeout hd hs hm =>
      obtain rfl := Duration.toTimeval_eq_iff.2 ⟨hs, hm⟩
      exact hplanned (.receiveTimeout hd)
    | sendTimeout hd hs hm =>
      obtain rfl := Duration.toTimeval_eq_iff.2 ⟨hs, hm⟩
      exact hplanned (.sendTimeout hd)
    | @receiveBuffer n size hn hsize =>
      obtain rfl : size = bufferSize n := Int32.toInt_inj.1 (hsize.trans (toInt_bufferSize n).symm)
      exact hplanned (.receiveBuffer hn)

end Settings

/-! ### What stops an opening -/

namespace Kernel

variable {k : Kernel} {ops : List Operation} {n : Nat} {e : Errno}

/-- The one at `n` of operations that are asked for one after the other must succeed, and fails. -/
def Meets (k : Kernel) (ops : List Operation) (n : Nat) (e : Errno) : Prop :=
  ∃ op, ops[n]? = some op ∧ op ≠ .extendedAck ∧ k.faults (k.calls.length + n) op = some e

/-- The operation at `n` is the first one that must succeed and fails. -/
structure StopsAt (k : Kernel) (ops : List Operation) (n : Nat) (e : Errno) : Prop where
  fails : k.Meets ops n e
  first : ∀ m < n, ∀ e', ¬ k.Meets ops m e'

theorem StopsAt.unique {n' : Nat} {e' : Errno} (h : k.StopsAt ops n e) (h' : k.StopsAt ops n' e') :
    n = n' ∧ e = e' := by
  rcases Nat.lt_trichotomy n n' with hlt | rfl | hlt
  · exact absurd h.fails (h'.first n hlt e)
  · obtain ⟨op, hop, -, he⟩ := h.fails
    obtain ⟨op', hop', -, he'⟩ := h'.fails
    obtain rfl := Option.some.inj (hop.symm.trans hop')
    exact ⟨rfl, Option.some.inj (he.symm.trans he')⟩
  · exact absurd h'.fails (h.first n' hlt e')

theorem meets_cons_zero {op : Operation} :
    k.Meets (op :: ops) 0 e ↔ op ≠ .extendedAck ∧ k.fault op = some e := by
  simp [Meets, fault]

/-- Behind a call that was made its fault is past. -/
theorem meets_cons_succ {call : SystemCall} :
    k.Meets (call.operation :: ops) (n + 1) e ↔ (k.record call).Meets ops n e := by
  have hnext : (k.record call).calls.length + n = k.calls.length + (n + 1) := by
    simp only [record, List.length_append, List.length_singleton]
    omega
  rw [Meets, Meets, hnext, List.getElem?_cons_succ]
  rfl

theorem stopsAt_zero (h : k.Meets ops 0 e) : k.StopsAt ops 0 e :=
  ⟨h, fun m hm => absurd hm (Nat.not_lt_zero m)⟩

theorem StopsAt.cons {call : SystemCall} (h : (k.record call).StopsAt ops n e)
    (hpast : ∀ e', ¬ k.Meets (call.operation :: ops) 0 e') :
    k.StopsAt (call.operation :: ops) (n + 1) e := by
  refine ⟨meets_cons_succ.2 h.fails, ?_⟩
  rintro (_ | m) hm e'
  · exact hpast e'
  · rw [meets_cons_succ]
    exact h.first m (Nat.lt_of_succ_lt_succ hm) e'

theorem not_meets_cons {call : SystemCall} (hpast : ∀ e', ¬ k.Meets (call.operation :: ops) 0 e')
    (hnone : ∀ n e, ¬ (k.record call).Meets ops n e) (n : Nat) (e : Errno) :
    ¬ k.Meets (call.operation :: ops) n e := by
  cases n with
  | zero => exact hpast e
  | succ n =>
    rw [meets_cons_succ]
    exact hnone n e

/-- What fails of the one operation that need not succeed makes no difference. -/
theorem meets_congr {faults : Nat → Operation → Option Errno}
    (h : ∀ n op, op ≠ .extendedAck → faults n op = k.faults n op) :
    { k with faults }.Meets ops n e ↔ k.Meets ops n e := by
  refine exists_congr fun op => and_congr_right fun _ => and_congr_right fun hop => ?_
  rw [← h _ op hop]

theorem stopsAt_congr {k' : Kernel} (h : ∀ n e, k'.Meets ops n e ↔ k.Meets ops n e) :
    k'.StopsAt ops n e ↔ k.StopsAt ops n e := by
  constructor
  · rintro ⟨hfails, hfirst⟩
    exact ⟨(h n e).1 hfails, fun m hm e' hk => hfirst m hm e' ((h m e').2 hk)⟩
  · rintro ⟨hfails, hfirst⟩
    exact ⟨(h n e).2 hfails, fun m hm e' hk => hfirst m hm e' ((h m e').1 hk)⟩

/-- A plan is followed up to the first call that fails and must not, or to its end if there is
none. -/
theorem follow_cases (plan : List PlannedCall) (k : Kernel) (hlive : k.live = true)
    (hrequired : ∀ p ∈ plan, p.required = true ↔ p.call.operation ≠ .extendedAck) :
    (∃ n e, k.StopsAt (plan.map (·.call.operation)) n e ∧ k.follow plan =
      (.error e, { k with calls := k.calls ++ (plan.map PlannedCall.call).take (n + 1) })) ∨
    ((∀ n e, ¬ k.Meets (plan.map (·.call.operation)) n e) ∧ k.follow plan =
      (.ok (), { k with calls := k.calls ++ plan.map PlannedCall.call })) := by
  induction plan generalizing k with
  | nil =>
    refine Or.inr ⟨?_, ?_⟩
    · rintro n e ⟨op, hop, -⟩
      simp at hop
    · simp [follow]
  | cons p plan ih =>
    obtain ⟨hp, hplan⟩ := List.forall_mem_cons.1 hrequired
    have hcheck : k.check p.call = Errno.orDone (k.fault p.call.operation) := check_of_live hlive _
    by_cases hmeets : ∃ e, k.Meets ((p :: plan).map (·.call.operation)) 0 e
    · obtain ⟨e, hmeets⟩ := hmeets
      obtain ⟨hop, hfault⟩ := meets_cons_zero.1 hmeets
      refine Or.inl ⟨0, e, stopsAt_zero hmeets, ?_⟩
      simp [follow, perform, hcheck, hfault, Errno.orDone, hp.2 hop, record]
    · have hpast : ∀ e, ¬ k.Meets ((p :: plan).map (·.call.operation)) 0 e :=
        fun e h => hmeets ⟨e, h⟩
      -- the call succeeds, or it need not
      have hgoes : k.follow (p :: plan) = (k.record p.call).follow plan := by
        cases hfault : k.fault p.call.operation with
        | none => simp [follow, perform, hcheck, hfault, Errno.orDone]
        | some e =>
          have hoptional : p.required = false := by
            rw [← Bool.not_eq_true, hp]
            exact fun hop => hpast e (meets_cons_zero.2 ⟨hop, hfault⟩)
          simp [follow, perform, hcheck, hfault, Errno.orDone, hoptional]
      rw [hgoes]
      rcases ih (k.record p.call) hlive hplan with ⟨n, e, hstops, heq⟩ | ⟨hnone, heq⟩
      · refine Or.inl ⟨n + 1, e, hstops.cons hpast, ?_⟩
        rw [heq]
        simp [record]
      · refine Or.inr ⟨not_meets_cons hpast hnone, ?_⟩
        rw [heq]
        simp [record]

end Kernel

namespace Socket

/-- What is left of the kernel when an opening has been stopped: the calls up to the one that failed
have been made, and a socket that was created by then has been closed. -/
def stopped (settings : Settings) (k : Kernel) (n : Nat) : Kernel :=
  { k with
    calls := k.calls ++ (settings.calls.take (n + 1) ++ if n = 0 then [] else [.close])
    live := if n = 0 then k.live else false }

/-- An opening is stopped, or it succeeds. -/
theorem openOn_cases (settings : Settings) (k : Kernel) :
    (∃ n e, k.StopsAt settings.operations n e ∧
      openOn settings k = .error (.socket e, stopped settings k n)) ∨
    ((∀ n e, ¬ k.Meets settings.operations n e) ∧ openOn settings k = .ok (opened settings k)) := by
  have hops : settings.operations =
      SystemCall.openSocket.operation :: settings.plan.map (·.call.operation) := by
    rw [← settings.operations_calls, Settings.calls, List.map_cons, List.map_map]
    rfl
  rw [hops]
  cases hf : k.fault .socket with
  | some e =>
    have hmeets : k.Meets (SystemCall.openSocket.operation ::
        settings.plan.map (·.call.operation)) 0 e :=
      Kernel.meets_cons_zero.2 ⟨by decide, hf⟩
    refine Or.inl ⟨0, e, Kernel.stopsAt_zero hmeets, ?_⟩
    rw [openOn, Kernel.openSocket_of_fault hf]
    simp [stopped, Settings.calls, Kernel.record]
  | none =>
    have hpast : ∀ e, ¬ k.Meets (SystemCall.openSocket.operation ::
        settings.plan.map (·.call.operation)) 0 e := by
      intro e h
      have hfault := (Kernel.meets_cons_zero.1 h).2
      exact absurd (hfault.symm.trans hf) (by simp)
    -- faults go by the calls made before, so the plan is followed by a kernel that has made one
    have hfollow := Kernel.follow_cases settings.plan
      { k.record .openSocket with live := true } rfl fun p => Settings.required_iff_of_mem_plan
    rw [openOn, Kernel.openSocket_of_none hf]
    rcases hfollow with ⟨n, e, hstops, heq⟩ | ⟨hnone, heq⟩
    · refine Or.inl ⟨n + 1, e, Kernel.StopsAt.cons ⟨hstops.fails, hstops.first⟩ hpast, ?_⟩
      dsimp only at heq ⊢
      rw [heq]
      simp [stopped, Settings.calls, Kernel.record, Kernel.close]
    · refine Or.inr ⟨Kernel.not_meets_cons hpast hnone, ?_⟩
      dsimp only at heq ⊢
      rw [heq]
      simp [opened, Kernel.record]

end Socket

namespace Connection

variable {settings : Settings} {sequence : UInt32} {k k' : Kernel} {error : Error}
  {c : Connection Socket}

/-- A connection is not opened exactly if a call stops the opening of its socket. -/
theorem openOn_eq_error_iff_stopsAt :
    openOn settings sequence k = .error (error, k') ↔
      ∃ n e, k.StopsAt settings.operations n e ∧ error = .socket e ∧
        k' = Socket.stopped settings k n := by
  rw [openOn_eq_error_iff]
  rcases Socket.openOn_cases settings k with ⟨n, e, hstops, heq⟩ | ⟨hnone, heq⟩
  · rw [heq, Except.error.injEq, Prod.mk.injEq]
    constructor
    · rintro ⟨rfl, rfl⟩
      exact ⟨n, e, hstops, rfl, rfl⟩
    · rintro ⟨n', e', hstops', rfl, rfl⟩
      obtain ⟨rfl, rfl⟩ := hstops.unique hstops'
      exact ⟨rfl, rfl⟩
  · rw [heq]
    refine iff_of_false (by simp) ?_
    rintro ⟨n, e, hstops, -⟩
    exact hnone n e hstops.fails

/-- It is opened exactly if no call fails that must not. -/
theorem openOn_eq_ok_iff :
    openOn settings sequence k = .ok c ↔
      (∀ n e, ¬ k.Meets settings.operations n e) ∧ c = opened settings sequence k := by
  rcases Socket.openOn_cases settings k with ⟨n, e, hstops, heq⟩ | ⟨hnone, heq⟩
  · rw [openOn_eq_error_iff.2 heq]
    exact iff_of_false (by simp) fun h => h.1 n e hstops.fails
  · rw [openOn_of_socket heq, Except.ok.injEq]
    exact ⟨fun h => ⟨hnone, h.symm⟩, fun h => h.2.symm⟩

/-- The errors with which a connection is not opened are those of the calls that stop the opening. -/
theorem exists_openOn_eq_error_iff {error : Error} :
    (∃ k', openOn settings sequence k = .error (error, k')) ↔
      ∃ n e, k.StopsAt settings.operations n e ∧ error = .socket e := by
  constructor
  · rintro ⟨k', h⟩
    obtain ⟨n, e, hstops, herror, -⟩ := openOn_eq_error_iff_stopsAt.1 h
    exact ⟨n, e, hstops, herror⟩
  · rintro ⟨n, e, hstops, herror⟩
    exact ⟨_, openOn_eq_error_iff_stopsAt.2 ⟨n, e, hstops, herror, rfl⟩⟩

/-- A connection is not opened exactly if a call fails that must not: creating the socket, giving it
an address, asking for that, or setting a configured limit or buffer size. The error is that of the
first such call, no other one is made behind it but to close a socket that was created, and whether
the kernel explains errors makes no difference. Otherwise the connection is open, with the port that
was asked for, and its socket has been given exactly the configured options, each once. -/
theorem openOn_all_or_nothing (settings : Settings) (sequence : UInt32) (k : Kernel) :
    ((∃ error k', openOn settings sequence k = .error (error, k')) ↔
      ∃ n e, k.Meets settings.operations n e) ∧
    (∀ error k', openOn settings sequence k = .error (error, k') → ∃ n e made,
      k.StopsAt settings.operations n e ∧ error = .socket e ∧
      k'.calls = k.calls ++ (made ++ if n = 0 then [] else [.close]) ∧
      made.map SystemCall.operation = settings.operations.take (n + 1) ∧
      (n ≠ 0 → k'.live = false)) ∧
    (∀ faults, (∀ n op, op ≠ .extendedAck → faults n op = k.faults n op) → ∀ error,
      (∃ k', openOn settings sequence { k with faults } = .error (error, k')) ↔
        ∃ k', openOn settings sequence k = .error (error, k')) ∧
    ∀ c, openOn settings sequence k = .ok c →
      c.closed = false ∧ c.transport.isOpen = true ∧ c.transport.kernel.live = true ∧
      (settings.portSource = .process → c.portId = k.processId) ∧
      (settings.portSource = .bound → c.portId = k.port) ∧
      ∃ made, c.transport.kernel.calls = k.calls ++ made ∧
        made.map SystemCall.operation = settings.operations ∧
        ∀ o, .setsockopt o ∈ made ↔ settings.Configures o := by
  refine ⟨?_, ?_, ?_, ?_⟩
  · rcases Socket.openOn_cases settings k with ⟨n, e, hstops, heq⟩ | ⟨hnone, heq⟩
    · exact iff_of_true ⟨_, _, openOn_eq_error_iff.2 heq⟩ ⟨n, e, hstops.fails⟩
    · rw [openOn_of_socket heq]
      exact iff_of_false (by simp) fun ⟨n, e, hmeets⟩ => hnone n e hmeets
  · intro error k' h
    obtain ⟨n, e, hstops, herror, rfl⟩ := openOn_eq_error_iff_stopsAt.1 h
    refine ⟨n, e, settings.calls.take (n + 1), hstops, herror, rfl, ?_, fun hn => if_neg hn⟩
    rw [List.map_take, settings.operations_calls]
  · intro faults hsame error
    have hstops (n : Nat) (e : Errno) : { k with faults }.StopsAt settings.operations n e ↔
        k.StopsAt settings.operations n e :=
      Kernel.stopsAt_congr fun _ _ => Kernel.meets_congr hsame
    rw [exists_openOn_eq_error_iff, exists_openOn_eq_error_iff]
    simp only [hstops]
  · intro c h
    obtain ⟨-, rfl⟩ := openOn_eq_ok_iff.1 h
    refine ⟨rfl, rfl, rfl, ?_, ?_, settings.calls, rfl, settings.operations_calls,
      fun o => Settings.setsockopt_mem_calls_iff⟩
    · intro hport
      simp only [opened, hport]
    · intro hport
      simp only [opened, hport]

/-- A kernel that cannot explain errors and cannot limit sending: an opening that asks for both is
stopped by the second, and one that limits receiving only is not stopped. -/
theorem openOn_all_or_nothing_of_failing_options :
    let quiet : Kernel := { order := .little, processId := 7, port := 9, descriptor := 5 }
    let k := (quiet.setFault .extendedAck (some .noEntry)).setFault .sendTimeout
      (some .accessDenied)
    let settings : Settings :=
      { receiveTimeout := some (.ofMilliseconds 1500), receiveBuffer := some 0x100000000
        portSource := .bound }
    (∃ k', openOn { settings with sendTimeout := some (.ofMilliseconds 250) } 1 k =
        .error (.socket .accessDenied, k') ∧
      k'.calls.map SystemCall.operation =
        [.socket, .bind, .getsockname, .extendedAck, .receiveTimeout, .sendTimeout, .close] ∧
      k'.live = false) ∧
    ∃ c, openOn settings 1 k = .ok c ∧ c.portId = 9 ∧
      .setsockopt (.receiveTimeout ⟨1, 500000⟩) ∈ c.transport.kernel.calls ∧
      .setsockopt (.receiveBuffer 0x7FFFFFFF) ∈ c.transport.kernel.calls := by
  intro quiet k settings
  constructor
  · let limited : Settings := { settings with sendTimeout := some (.ofMilliseconds 250) }
    have hstops : k.StopsAt limited.operations 5 .accessDenied := by
      refine ⟨⟨.sendTimeout, rfl, by decide, rfl⟩, ?_⟩
      rintro (_ | _ | _ | _ | _ | m) hm e ⟨op, hop, hrequired, hfails⟩
      · cases hop
        cases hfails
      · cases hop
        cases hfails
      · cases hop
        cases hfails
      · cases hop
        exact hrequired rfl
      · cases hop
        cases hfails
      · omega
    have hopen : openOn limited 1 k = .error (.socket .accessDenied, Socket.stopped limited k 5) :=
      openOn_eq_error_iff_stopsAt.2 ⟨5, .accessDenied, hstops, rfl, rfl⟩
    obtain ⟨n, e, made, hstops', -, hcalls, hmade, hclosed⟩ :=
      (openOn_all_or_nothing limited 1 k).2.1 _ _ hopen
    obtain ⟨rfl, rfl⟩ := hstops.unique hstops'
    refine ⟨_, hopen, ?_, hclosed (by decide)⟩
    rw [hcalls, List.map_append, List.map_append, hmade]
    rfl
  · have hopen : openOn settings 1 k = .ok (opened settings 1 k) := rfl
    obtain ⟨-, -, -, -, hport, made, hcalls, -, hset⟩ :=
      (openOn_all_or_nothing settings 1 k).2.2.2 _ hopen
    refine ⟨_, hopen, hport rfl, ?_, ?_⟩
    · rw [hcalls]
      exact List.mem_append_right _ ((hset _).2 (.receiveTimeout rfl rfl rfl))
    · rw [hcalls]
      exact List.mem_append_right _ ((hset _).2 (.receiveBuffer rfl rfl))

end Connection

end GenericNetlink
