import GenericNetlink.Connection
import GenericNetlink.Proofs.Mailbox
import GenericNetlink.Proofs.Reply
import GenericNetlink.Proofs.Stream

/-!
What one delivery is to a receiver that waits for answers to a request.

It brings a batch of messages (`Delivery.Brings`), and they are answers all of them, or there is a
fault (`Delivery.Fault`). `Delivery.answers` computes which it is; `answers_eq_ok_iff` and
`answers_eq_error_iff` say so.
-/

namespace GenericNetlink

namespace Delivery

/-- The delivery arrives, and its bytes up to a word boundary are the given messages. -/
structure Brings (host : Host) (d : Delivery) (batch : List Message) : Prop where
  shown : d.peekFault = none
  taken : d.receiveFault = none
  parses : Message.decodeAll host.order (d.received host.page).padded = .ok batch

/-- What is wrong with a delivery, for a receiver that waits for answers to a request. A fault on
the way comes first, then one in the whole of the bytes, then one in the first message that is no
answer. -/
inductive Fault (host : Host) (request : Header) (d : Delivery) : Error → Prop
  | unseen {e : Errno} : d.peekFault = some e → Fault host request d (.receive e)
  | untaken {e : Errno} : d.peekFault = none → d.receiveFault = some e →
      Fault host request d (.receive e)
  | malformed {fault : MessageFault} : d.peekFault = none → d.receiveFault = none →
      Message.decodeAll host.order (d.received host.page).padded = .error (.malformedMessage fault) →
      Fault host request d (.malformedMessage fault)
  | rejected {before after : List Message} {m : Message} {e : Error} :
      d.Brings host (before ++ m :: after) → (∀ x ∈ before, Reply.Answers request x) →
      Reply.Rejected host.order request m e → Fault host request d e

/-- The messages in what was received, or why there are none. -/
def parsed (order : ByteOrder) : Except Errno Bytes → Except Error (List Message)
  | .error e => .error (.receive e)
  | .ok b => Message.decodeAll order b.padded

/-- The messages that the delivery brings, or why it brings none. -/
def batch (host : Host) (d : Delivery) : Except Error (List Message) :=
  parsed host.order (d.arrival host.page)

/-- The messages that the delivery brings if they are answers, or what is wrong with it. -/
def answers (host : Host) (request : Header) (d : Delivery) : Except Error (List Message) :=
  (d.batch host).bind fun batch =>
    match batch.findSome? (Reply.fault host.order request) with
    | some e => .error e
    | none => .ok batch

variable {host : Host} {request : Header} {d : Delivery} {batch : List Message}

theorem batch_eq_ok_iff : d.batch host = .ok batch ↔ d.Brings host batch := by
  unfold Delivery.batch
  constructor
  · intro h
    cases ha : d.arrival host.page with
    | error e => rw [ha] at h; simp [parsed] at h
    | ok b =>
      rw [ha] at h
      obtain ⟨hp, hr, rfl⟩ := arrival_eq_ok_iff.1 ha
      exact ⟨hp, hr, h⟩
  · rintro ⟨hp, hr, hparse⟩
    rw [arrival_eq_ok_iff.2 ⟨hp, hr, rfl⟩]
    exact hparse

theorem Brings.unique {batch' : List Message} (h : d.Brings host batch)
    (h' : d.Brings host batch') : batch = batch' :=
  Except.ok.inj (h.parses.symm.trans h'.parses)

/-- A datagram of messages written back to back brings these messages. -/
theorem brings_wires {ms : List Message} (h : ∀ m ∈ ms, m.Sealed) :
    (ofBytes (ms.flatMap (Message.wire host.order))).Brings host ms where
  shown := rfl
  taken := rfl
  parses := by
    rw [received_ofBytes, Bytes.padded_of_mod (Message.length_wires_mod host.order ms),
      Message.decodeAll_wires host.order h]

/-- A datagram too short for a header brings no message. -/
theorem brings_of_short {b : Bytes} (h : b.padded.length < Header.size) :
    (ofBytes b).Brings host [] where
  shown := rfl
  taken := rfl
  parses := by
    rw [received_ofBytes]
    exact (Message.format host.order).collect_of_lt h

theorem answers_eq_ok_iff :
    d.answers host request = .ok batch ↔
      d.Brings host batch ∧ ∀ m ∈ batch, Reply.Answers request m := by
  have hnone (b : List Message) : b.findSome? (Reply.fault host.order request) = none ↔
      ∀ m ∈ b, Reply.Answers request m := by
    rw [List.findSome?_eq_none_iff]
    exact forall₂_congr fun _ _ => Reply.fault_eq_none_iff
  unfold answers
  constructor
  · intro h
    cases hb : d.batch host with
    | error e => rw [hb] at h; simp [Except.bind] at h
    | ok b =>
      rw [hb] at h
      simp only [Except.bind] at h
      split at h
      · simp at h
      · next hall =>
        obtain rfl := Except.ok.inj h
        exact ⟨batch_eq_ok_iff.1 hb, (hnone b).1 hall⟩
  · rintro ⟨hb, hall⟩
    rw [batch_eq_ok_iff.2 hb]
    simp only [Except.bind, (hnone batch).2 hall]

theorem fault_of_answers_error {e : Error} (h : d.answers host request = .error e) :
    d.Fault host request e := by
  unfold answers batch at h
  -- faults are met in this order, and each only if there is none before it
  cases hp : d.peekFault with
  | some f =>
    simp only [arrival, parsed, hp, Except.bind] at h
    obtain rfl := Except.error.inj h
    exact .unseen hp
  | none =>
    cases hr : d.receiveFault with
    | some f =>
      simp only [arrival, parsed, hp, hr, Except.bind] at h
      obtain rfl := Except.error.inj h
      exact .untaken hp hr
    | none =>
      rw [arrival_eq_ok_iff.2 ⟨hp, hr, rfl⟩] at h
      cases hd : Message.decodeAll host.order (d.received host.page).padded with
      | error f =>
        simp only [parsed, hd, Except.bind] at h
        obtain rfl := Except.error.inj h
        obtain ⟨fault, rfl⟩ := Message.malformed_of_decodeAll hd
        exact .malformed hp hr hd
      | ok b =>
        simp only [parsed, hd, Except.bind] at h
        split at h
        · next f hf =>
          obtain rfl := Except.error.inj h
          obtain ⟨before, m, after, rfl, hm, hbefore⟩ := List.findSome?_eq_some_iff.1 hf
          exact .rejected ⟨hp, hr, hd⟩ (fun x hx => Reply.fault_eq_none_iff.1 (hbefore x hx))
            (Reply.fault_eq_some_iff.1 hm)
        · simp at h

theorem answers_eq_error_iff {e : Error} :
    d.answers host request = .error e ↔ d.Fault host request e := by
  refine ⟨fault_of_answers_error, fun h => ?_⟩
  cases h with
  | unseen hp => simp only [answers, batch, parsed, arrival, hp, Except.bind]
  | untaken hp hr => simp only [answers, batch, parsed, arrival, hp, hr, Except.bind]
  | malformed hp hr hd =>
    simp only [answers, batch, parsed, arrival_eq_ok_iff.2 ⟨hp, hr, rfl⟩, hd, Except.bind]
  | @rejected before after m e hb hbefore hm =>
    have hfind : (before ++ m :: after).findSome? (Reply.fault host.order request) = some e :=
      List.findSome?_eq_some_iff.2 ⟨before, m, after, rfl, Reply.fault_eq_some_iff.2 hm,
        fun x hx => Reply.fault_eq_none_iff.2 (hbefore x hx)⟩
    simp only [answers, batch_eq_ok_iff.2 hb, Except.bind, hfind]

end Delivery

end GenericNetlink
