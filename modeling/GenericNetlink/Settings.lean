/-!
What a connection is configured with.
-/

namespace GenericNetlink

/-- A span of time: whole seconds, and the nanoseconds of the last, incomplete one. -/
structure Duration where
  seconds : UInt64
  nanoseconds : UInt32
  nanoseconds_lt : nanoseconds.toNat < 1000000000
  deriving DecidableEq

namespace Duration

/-- Seconds and nanoseconds; a billion nanoseconds are carried over as a second. -/
def ofParts (seconds : UInt64) (nanoseconds : UInt32) : Duration where
  seconds := seconds + (nanoseconds / 1000000000).toUInt64
  nanoseconds := nanoseconds % 1000000000
  nanoseconds_lt := by
    rw [UInt32.toNat_mod]
    exact Nat.mod_lt _ (by decide)

/-- A number of milliseconds. -/
def ofMilliseconds (n : UInt64) : Duration where
  seconds := n / 1000
  nanoseconds := (n % 1000).toUInt32 * 1000000
  nanoseconds_lt := by
    have h : n.toNat % 1000 < 1000 := Nat.mod_lt _ (by decide)
    rw [UInt32.toNat_mul, UInt64.toNat_toUInt32, UInt64.toNat_mod]
    simp only [show (1000 : UInt64).toNat = 1000 from rfl,
      show (1000000 : UInt32).toNat = 1000000 from rfl]
    rw [Nat.mod_eq_of_lt (show n.toNat % 1000 < 2 ^ 32 by omega), Nat.mod_eq_of_lt (by omega)]
    omega

end Duration

/-- Where a connection takes the port that it stamps on requests from: it is the number of the
process, or the port that the kernel gave the socket. -/
inductive PortSource where
  | process
  | bound
  deriving DecidableEq, Inhabited

/-- What a connection is configured with: how long to wait for a datagram to be received or sent
(for ever, if that is not given), the size of the kernel's receive buffer, whether to ask for
explanations in error records, and where the port comes from. -/
structure Settings where
  receiveTimeout : Option Duration := none
  sendTimeout : Option Duration := none
  receiveBuffer : Option UInt64 := none
  extendedAck : Bool := true
  portSource : PortSource := .process
  deriving DecidableEq, Inhabited

end GenericNetlink
