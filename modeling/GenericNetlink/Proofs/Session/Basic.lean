import GenericNetlink.Proofs.Packing
import GenericNetlink.Proofs.Receiving
import Mathlib.Data.List.TakeWhile

/-!
Sessions: the calls on a connection, one after the other.

Callers that share a connection take turns, so whatever they do, the connection sees a list of
calls. Four facts about the connection after them need nothing of the transport: its host and its
port never change (`after_toHost`, `after_portId`), it is closed exactly if one of the calls closed
it (`after_closed`), and each request before that has used up one number (`after_sequence`). An
invariant of the transport holds after them (`after_invariant`).
-/

namespace GenericNetlink.Connection

/-- A call on a connection: to send a request and receive the reply to it, or to close. -/
inductive Call where
  | request (m : Message)
  | close
  deriving DecidableEq

variable {σ : Type}

/-- What goes out has its length set. -/
theorem sealed_outgoing {c : Connection σ} {m : Message} (h : m.size < Message.sizeLimit) :
    (c.outgoing m).Sealed :=
  Message.sealed_withLength (m := c.stamp m) h

variable [Transport σ]

/-- The connection after a call. -/
def next (c : Connection σ) : Call → Connection σ
  | .request m => (c.request m).2
  | .close => c.close.2

/-- The connection after some calls. -/
def after (c : Connection σ) (calls : List Call) : Connection σ := calls.foldl next c

/-- The calls before the first one that closes; all of them are requests. -/
def beforeClose (calls : List Call) : List Call := calls.takeWhile (· ≠ .close)

@[simp] theorem after_nil (c : Connection σ) : c.after [] = c := rfl

@[simp] theorem after_cons (c : Connection σ) (call : Call) (calls : List Call) :
    c.after (call :: calls) = (c.next call).after calls := rfl

/-! ### One call -/

/-- A request leaves everything but the transport and the sequence number alone, and uses up one
number unless the connection is closed. -/
theorem request_fields (c : Connection σ) (m : Message) :
    (c.request m).2.toHost = c.toHost ∧ (c.request m).2.portId = c.portId ∧
      (c.request m).2.closed = c.closed ∧
      (c.request m).2.sequence = if c.closed then c.sequence else c.sequence + 1 := by
  cases hclosed : c.closed with
  | true => simp [request_of_closed hclosed, hclosed]
  | false =>
    rcases Nat.lt_or_ge m.size Message.sizeLimit with hfits | hlong
    · rcases hs : Transport.send (c.datagram m) c.transport with ⟨e | _, t⟩
      · simp [request_of_unsent hclosed hfits hs, hclosed]
      · simp [request_of_sent ⟨hclosed, hfits, hs⟩, hclosed]
    · simp [request_of_tooLong hclosed hlong, hclosed]

@[simp] theorem request_toHost (c : Connection σ) (m : Message) :
    (c.request m).2.toHost = c.toHost := (c.request_fields m).1

@[simp] theorem request_portId (c : Connection σ) (m : Message) :
    (c.request m).2.portId = c.portId := (c.request_fields m).2.1

@[simp] theorem request_closed (c : Connection σ) (m : Message) :
    (c.request m).2.closed = c.closed := (c.request_fields m).2.2.1

theorem request_sequence (c : Connection σ) (m : Message) :
    (c.request m).2.sequence = if c.closed then c.sequence else c.sequence + 1 :=
  (c.request_fields m).2.2.2

theorem request_sequence_of_open {c : Connection σ} (hopen : c.closed = false) (m : Message) :
    (c.request m).2.sequence = c.sequence + 1 := by
  rw [request_sequence, hopen]; rfl

/-! ### Any number of calls -/

theorem after_toHost (c : Connection σ) (calls : List Call) :
    (c.after calls).toHost = c.toHost := by
  induction calls generalizing c with
  | nil => rfl
  | cons call calls ih =>
    cases call with
    | request m => rw [after_cons, ih]; exact c.request_toHost m
    | close => rw [after_cons, ih]; rfl

theorem after_portId (c : Connection σ) (calls : List Call) :
    (c.after calls).portId = c.portId := by
  induction calls generalizing c with
  | nil => rfl
  | cons call calls ih =>
    cases call with
    | request m => rw [after_cons, ih]; exact c.request_portId m
    | close => rw [after_cons, ih]; rfl

/-- A connection is closed exactly if it was before or one of the calls closed it. -/
theorem after_closed (c : Connection σ) (calls : List Call) :
    (c.after calls).closed = true ↔ c.closed = true ∨ Call.close ∈ calls := by
  induction calls generalizing c with
  | nil => simp
  | cons call calls ih =>
    rw [after_cons, ih]
    cases call with
    | request m => simp [next]
    | close => simp [next, close]

/-- The requests before the first closing call use up one sequence number each. -/
theorem after_sequence (c : Connection σ) (calls : List Call) :
    (c.after calls).sequence =
      if c.closed then c.sequence
      else c.sequence + UInt32.ofNat (beforeClose calls).length := by
  induction calls generalizing c with
  | nil => simp [beforeClose]
  | cons call calls ih =>
    rw [after_cons, ih]
    cases call with
    | request m =>
      have hcount : (beforeClose (.request m :: calls)).length =
          (beforeClose calls).length + 1 := by
        simp [beforeClose]
      simp only [next, request_closed, request_sequence, hcount]
      split
      · rfl
      · rw [UInt32.ofNat_add, UInt32.add_assoc, UInt32.add_comm 1]
        rfl
    | close => simp [next, close, beforeClose]

theorem after_requests_sequence {c : Connection σ} (hopen : c.closed = false)
    (requests : List Message) :
    (c.after (requests.map .request)).sequence = c.sequence + UInt32.ofNat requests.length := by
  have hall : beforeClose (requests.map .request) = requests.map .request :=
    List.takeWhile_eq_self_iff.2 (by simp)
  rw [after_sequence, hall, List.length_map]
  simp [hopen]

/-- What all calls on the transport keep holds after any calls on the connection. -/
theorem after_invariant {P : σ → Prop} (h : Transport.Invariant P) {c : Connection σ}
    (hc : P c.transport) (calls : List Call) : P (c.after calls).transport := by
  induction calls generalizing c with
  | nil => exact hc
  | cons call calls ih =>
    cases call with
    | request m => exact ih (h.request hc m)
    | close => exact ih (h.close hc)

end GenericNetlink.Connection
