import GenericNetlink.Proofs.Socket.Opening

/-!
The timeouts of a socket.

A socket that is opened has been told once how long to wait for each thing that its settings limit
the wait for, and nothing of the others. What it has been told is the duration with the part of a
microsecond cut off (`Duration.inMicroseconds_toTimeval`). That is never longer than the duration,
and it is zero for durations below a microsecond, which the kernel takes for no limit at all
(`Duration.bounds_toTimeval_iff`).
-/

namespace GenericNetlink

/-! ### Spans of time -/

/-- The duration as a number of nanoseconds. -/
def Duration.inNanoseconds (d : Duration) : Nat := d.seconds.toNat * 1000000000 + d.nanoseconds.toNat

namespace Timeval

/-- The span that has the kernel wait for ever. -/
def forever : Timeval := ⟨0, 0⟩

/-- The span as a number of microseconds. -/
def inMicroseconds (t : Timeval) : Int := t.seconds.toInt * 1000000 + t.microseconds.toInt

/-- A span that the kernel accepts, with nothing negative and less than a second of microseconds, no
longer than a duration rounded up to microseconds. -/
structure Within (t : Timeval) (d : Duration) : Prop where
  seconds_nonneg : 0 ≤ t.seconds.toInt
  microseconds_nonneg : 0 ≤ t.microseconds.toInt
  microseconds_lt : t.microseconds.toInt < 1000000
  le : t.inMicroseconds ≤ ((d.inNanoseconds + 999) / 1000 : Nat)

/-- Such a span that is a limit: the kernel does not take it for none. -/
structure Bounds (t : Timeval) (d : Duration) : Prop extends t.Within d where
  finite : t ≠ forever

end Timeval

namespace Duration

/-- The most seconds that the kernel can take. -/
def mostSeconds : Nat := 0x7FFFFFFFFFFFFFFF

theorem seconds_toTimeval (d : Duration) :
    d.toTimeval.seconds.toInt = (min d.seconds.toNat mostSeconds : Nat) :=
  Int64.toInt_ofNat_of_lt (Nat.lt_of_le_of_lt (Nat.min_le_right _ _) (by decide))

theorem microseconds_toTimeval (d : Duration) :
    d.toTimeval.microseconds.toInt = (d.nanoseconds.toNat / 1000 : Nat) := by
  have := d.nanoseconds_lt
  exact Int64.toInt_ofNat_of_lt (by omega)

/-- A span is known by its two numbers. -/
theorem toTimeval_eq_iff {d : Duration} {t : Timeval} :
    d.toTimeval = t ↔ t.seconds.toInt = (min d.seconds.toNat mostSeconds : Nat) ∧
      t.microseconds.toInt = (d.nanoseconds.toNat / 1000 : Nat) := by
  rw [← seconds_toTimeval, ← microseconds_toTimeval, Int64.toInt_inj, Int64.toInt_inj]
  cases t
  rw [Timeval.mk.injEq, eq_comm, @eq_comm _ d.toTimeval.microseconds]

/-- The part of a microsecond is cut off. -/
theorem inMicroseconds_toTimeval {d : Duration} (h : d.seconds.toNat ≤ mostSeconds) :
    d.toTimeval.inMicroseconds = (d.inNanoseconds / 1000 : Nat) := by
  rw [Timeval.inMicroseconds, seconds_toTimeval, microseconds_toTimeval, Nat.min_eq_left h,
    inNanoseconds]
  omega

/-- Seconds that the kernel cannot take are cut off. -/
theorem inMicroseconds_toTimeval_le (d : Duration) :
    d.toTimeval.inMicroseconds ≤ (d.inNanoseconds / 1000 : Nat) := by
  have hmin := Nat.min_le_left d.seconds.toNat mostSeconds
  rw [Timeval.inMicroseconds, seconds_toTimeval, microseconds_toTimeval, inNanoseconds]
  omega

theorem within_toTimeval (d : Duration) : d.toTimeval.Within d where
  seconds_nonneg := by rw [seconds_toTimeval]; omega
  microseconds_nonneg := by rw [microseconds_toTimeval]; omega
  microseconds_lt := by
    have := d.nanoseconds_lt
    rw [microseconds_toTimeval]
    omega
  le := by
    have := inMicroseconds_toTimeval_le d
    omega

/-- Durations below a microsecond, and no others, come to no limit. -/
theorem toTimeval_eq_forever_iff {d : Duration} :
    d.toTimeval = .forever ↔ d.inNanoseconds < 1000 := by
  rw [toTimeval_eq_iff, show Timeval.forever.seconds.toInt = 0 from rfl,
    show Timeval.forever.microseconds.toInt = 0 from rfl, inNanoseconds, mostSeconds]
  omega

theorem bounds_toTimeval_iff {d : Duration} : d.toTimeval.Bounds d ↔ 1000 ≤ d.inNanoseconds := by
  constructor
  · intro h
    exact Nat.not_lt.1 fun hlt => h.finite (toTimeval_eq_forever_iff.2 hlt)
  · intro h
    exact ⟨d.within_toTimeval, fun hzero => Nat.not_lt.2 h (toTimeval_eq_forever_iff.1 hzero)⟩

end Duration

/-! ### Limits on waiting -/

/-- What a socket waits for: that a datagram can be received, or sent. -/
inductive Wait where
  | receiving
  | sending
  deriving DecidableEq

namespace Wait

/-- The limit that the settings put on the wait. -/
def limit (s : Settings) : Wait → Option Duration
  | receiving => s.receiveTimeout
  | sending => s.sendTimeout

/-- The option that puts it on a socket. -/
def option (t : Timeval) : Wait → SocketOption
  | receiving => .receiveTimeout t
  | sending => .sendTimeout t

/-- What is asked for by setting this option. -/
def operation : Wait → Operation
  | receiving => .receiveTimeout
  | sending => .sendTimeout

end Wait

/-- A plan sets each limit once, and none that is not there. -/
theorem Settings.filter_plan (s : Settings) (w : Wait) :
    (s.plan.map PlannedCall.call).filter (·.operation = w.operation) =
      ((w.limit s).map fun d => .setsockopt (w.option d.toTimeval)).toList := by
  rcases s with ⟨receiveTimeout, sendTimeout, receiveBuffer, extendedAck, portSource⟩
  cases w <;> cases receiveTimeout <;> cases sendTimeout <;> cases receiveBuffer <;>
    cases extendedAck <;> rfl

namespace Socket

variable {settings : Settings} {k : Kernel} {s : Socket}

/-- A socket that is opened has been told, once and among the calls of its opening, about each limit
that its settings put on a wait, and about no other. It is told a span that the kernel accepts and
that is not too long: the limit in whole microseconds, as far as the kernel can take its seconds.
This span bounds the wait exactly if the limit is a microsecond or more. -/
theorem openOn_timeouts (h : openOn settings k = .ok s) :
    ∃ made, s.kernel.calls = k.calls ++ made ∧ ∀ w : Wait,
      made.filter (·.operation = w.operation) =
        ((w.limit settings).map fun d => .setsockopt (w.option d.toTimeval)).toList ∧
      ∀ d, w.limit settings = some d →
        d.toTimeval.Within d ∧
        (d.seconds.toNat ≤ Duration.mostSeconds →
          d.toTimeval.inMicroseconds = (d.inNanoseconds / 1000 : Nat)) ∧
        (d.toTimeval.Bounds d ↔ 1000 ≤ d.inNanoseconds) := by
  have hopening := opening settings k
  rw [h] at hopening
  cases hopening with
  | opened _ =>
    refine ⟨_, rfl, fun w => ⟨?_, ?_⟩⟩
    · have hother : SystemCall.openSocket.operation ≠ w.operation := by cases w <;> decide
      rw [List.filter_cons_of_neg (by simpa using hother), settings.filter_plan w]
    · intro d _
      exact ⟨d.within_toTimeval, Duration.inMicroseconds_toTimeval, Duration.bounds_toTimeval_iff⟩

/-- A socket is told to wait a second and a half for datagrams, and for sending them as long as the
kernel can. -/
theorem openOn_timeouts_of_both :
    let long : Duration := ⟨0xFFFFFFFFFFFFFFFF, 999999999, by decide⟩
    let settings : Settings :=
      { receiveTimeout := some (.ofMilliseconds 1500), sendTimeout := some long }
    let k : Kernel := { order := .little, processId := 777, port := 4021, descriptor := 5 }
    openOn settings k = .ok (opened settings k) ∧
      ∃ made, (opened settings k).kernel.calls = k.calls ++ made ∧
        made.filter (·.operation = .receiveTimeout) =
          [.setsockopt (.receiveTimeout ⟨1, 500000⟩)] ∧
        made.filter (·.operation = .sendTimeout) =
          [.setsockopt (.sendTimeout ⟨0x7FFFFFFFFFFFFFFF, 999999⟩)] ∧
        (Timeval.mk 1 500000).Bounds (.ofMilliseconds 1500) ∧
        (Timeval.mk 0x7FFFFFFFFFFFFFFF 999999).Bounds long := by
  intro long settings k
  have hopen : openOn settings k = .ok (opened settings k) := openOn_of_quiet fun _ _ => rfl
  have hlong : long.toTimeval = ⟨0x7FFFFFFFFFFFFFFF, 999999⟩ := by decide
  obtain ⟨made, hcalls, hwait⟩ := openOn_timeouts hopen
  obtain ⟨hreceive, hreceives⟩ := hwait .receiving
  obtain ⟨hsend, hsends⟩ := hwait .sending
  refine ⟨hopen, made, hcalls, hreceive, ?_, (hreceives _ rfl).2.2.2 (by decide), ?_⟩
  · rw [← hlong]
    exact hsend
  · rw [← hlong]
    exact (hsends long rfl).2.2.2 (by decide)

/-- A socket with a limit of a nanosecond is told to wait for ever. -/
theorem openOn_of_one_nanosecond :
    let d : Duration := ⟨0, 1, by decide⟩
    let settings : Settings := { receiveTimeout := some d }
    let k : Kernel := { order := .little, processId := 777, port := 4021, descriptor := 5 }
    0 < d.inNanoseconds ∧ openOn settings k = .ok (opened settings k) ∧
      .setsockopt (.receiveTimeout .forever) ∈ (opened settings k).kernel.calls ∧
      ¬ Timeval.forever.Bounds d := by
  intro d settings k
  refine ⟨by decide, openOn_of_quiet fun _ _ => rfl, by decide, ?_⟩
  intro h
  exact h.finite rfl

end Socket

end GenericNetlink
