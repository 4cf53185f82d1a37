import GenericNetlink.Proofs.Delivery
import Mathlib.Data.List.Forall2

/-!
Reading a reply off an inbox.

`Inbox.collect` is the receiving loop of a connection as a recursion over the inbox: on a mailbox
the loop does nothing else (`Mailbox.collect_view`). What it comes to is said by two descriptions
of an inbox. It begins with a complete reply, the shortest one, or deliveries that leave the reply
unfinished are followed by a fault, and there is no third case (`Reply.complete_or_fault`). In the
first one the loop gives the messages of the reply (`collect_of_complete`), in the second the fault
(`collect_of_unfinished`), and either way what it has not read is left.
-/

namespace GenericNetlink

/-! ### The receiving loop -/

namespace Inbox

/-- Every message of a reply, and what it leaves in the inbox. -/
def collect (host : Host) (request : Header) : Inbox → Except Error (List Message) × Inbox
  | [] => (.error (.receive .unavailable), [])
  | d :: rest =>
    match d.answers host request with
    | .error e => (.error e, rest)
    | .ok batch =>
      if Reply.isFinal batch then (.ok batch, rest)
      else ((collect host request rest).1.map (batch ++ ·), (collect host request rest).2)

end Inbox

namespace Mailbox

variable {σ : Type} [Transport σ] [Mailbox σ]

/-- The next batch of a mailbox is what is parsed of the next arrival. -/
theorem receiveBatch_view (host : Host) (s : σ) :
    (Connection.receiveBatch host s).map id inbox =
      ((inbox s).arrive host.page).map (Delivery.parsed host.order) id := by
  rw [← receiveWhole_view, Connection.receiveBatch]
  cases Transport.receiveWhole host.page s with
  | mk r t => cases r <;> rfl

/-- On a mailbox, the receiving loop is the recursion over the inbox. -/
theorem collect_view (host : Host) (request : Header) (s : σ) :
    (Connection.collect host request s).map id inbox = (inbox s).collect host request := by
  -- each turn of the loop uses up one delivery, or ends it
  induction hi : inbox s generalizing s with
  | nil =>
    have hb := receiveBatch_view host s
    rw [hi] at hb
    rw [Connection.collect]
    split
    · next e t h => rw [h] at hb; exact hb
    · next batch t h =>
      rw [h] at hb
      simp [Inbox.arrive, Delivery.parsed] at hb
  | cons d rest ih =>
    have hb := receiveBatch_view host s
    rw [hi] at hb
    rw [Connection.collect, Inbox.collect, Delivery.answers]
    split
    · next e t h =>
      rw [h] at hb
      obtain ⟨hd, ht⟩ : .error e = d.batch host ∧ inbox t = rest := Prod.mk.inj hb
      rw [← hd]
      exact congrArg _ ht
    · next batch t h =>
      rw [h] at hb
      obtain ⟨hd, ht⟩ : .ok batch = d.batch host ∧ inbox t = rest := Prod.mk.inj hb
      simp only [← hd, Except.bind]
      cases batch.findSome? (Reply.fault host.order request) with
      | some e => exact congrArg _ ht
      | none =>
        simp only
        split
        · exact congrArg _ ht
        · rw [← ih t ht]; rfl

end Mailbox

/-! ### Unfinished and complete replies -/

namespace Reply

/-- Deliveries of a reply that leave it unfinished: they bring answers, and no batch of them ends
the reply. -/
structure Unfinished (host : Host) (request : Header) (early : List Delivery)
    (batches : List (List Message)) : Prop where
  brings : List.Forall₂ (Delivery.Brings host) early batches
  answers : ∀ batch ∈ batches, ∀ m ∈ batch, Answers request m
  goesOn : ∀ batch ∈ batches, ¬ Ends batch

/-- A complete reply: deliveries that leave it unfinished, and a last one that ends it. -/
structure Complete (host : Host) (request : Header) (early : List Delivery)
    (batches : List (List Message)) (last : Delivery) (final : List Message) : Prop
    extends Unfinished host request early batches where
  lastBrings : last.Brings host final
  lastAnswers : ∀ m ∈ final, Answers request m
  ends : Ends final

/-- What stops the reading of a reply at the head of an inbox: nothing is left to be received, or
the next delivery is at fault. -/
inductive FirstFault (host : Host) (request : Header) : Inbox → Error → Prop
  | dry : FirstFault host request [] (.receive .unavailable)
  | head {d : Delivery} {rest : Inbox} {e : Error} : d.Fault host request e →
      FirstFault host request (d :: rest) e

variable {host : Host} {request : Header}

theorem unfinished_nil : Unfinished host request [] [] :=
  ⟨.nil, by simp, by simp⟩

theorem Unfinished.cons {d : Delivery} {batch : List Message} {early : List Delivery}
    {batches : List (List Message)} (hb : d.Brings host batch)
    (ha : ∀ m ∈ batch, Answers request m) (hgo : ¬ Ends batch)
    (h : Unfinished host request early batches) :
    Unfinished host request (d :: early) (batch :: batches) where
  brings := .cons hb h.brings
  answers := List.forall_mem_cons.2 ⟨ha, h.answers⟩
  goesOn := List.forall_mem_cons.2 ⟨hgo, h.goesOn⟩

/-- An inbox begins with a complete reply, or something stops the reading of one. -/
theorem complete_or_fault (host : Host) (request : Header) (inbox : Inbox) :
    (∃ early batches last final rest, inbox = early ++ last :: rest ∧
      Complete host request early batches last final) ∨
    ∃ early batches late e, inbox = early ++ late ∧ Unfinished host request early batches ∧
      FirstFault host request late e := by
  induction inbox with
  | nil => exact Or.inr ⟨[], [], [], _, rfl, unfinished_nil, .dry⟩
  | cons d inbox ih =>
    cases hd : d.answers host request with
    | error e =>
      exact Or.inr ⟨[], [], _, e, rfl, unfinished_nil, .head (Delivery.answers_eq_error_iff.1 hd)⟩
    | ok batch =>
      obtain ⟨hb, ha⟩ := Delivery.answers_eq_ok_iff.1 hd
      by_cases hends : Ends batch
      · exact Or.inl ⟨[], [], d, batch, inbox, rfl, unfinished_nil, hb, ha, hends⟩
      · rcases ih with
          ⟨early, batches, last, final, rest, rfl, h⟩ | ⟨early, batches, late, e, rfl, h, hf⟩
        · exact Or.inl ⟨d :: early, batch :: batches, last, final, rest, rfl,
            h.toUnfinished.cons hb ha hends, h.lastBrings, h.lastAnswers, h.ends⟩
        · exact Or.inr ⟨d :: early, batch :: batches, late, e, rfl, h.cons hb ha hends, hf⟩

end Reply

namespace Inbox

variable {host : Host} {request : Header}

theorem collect_of_fault {late : Inbox} {e : Error} (h : Reply.FirstFault host request late e) :
    late.collect host request = (.error e, late.tail) := by
  cases h with
  | dry => rfl
  | head hf => simp only [collect, Delivery.answers_eq_error_iff.2 hf, List.tail_cons]

theorem collect_of_ends {d : Delivery} {batch : List Message} {rest : Inbox}
    (hb : d.Brings host batch) (ha : ∀ m ∈ batch, Reply.Answers request m)
    (hends : Reply.Ends batch) : collect host request (d :: rest) = (.ok batch, rest) := by
  simp only [collect, Delivery.answers_eq_ok_iff.2 ⟨hb, ha⟩, Reply.isFinal_iff.2 hends, if_true]

/-- Behind deliveries that leave a reply unfinished the reading goes on. -/
theorem collect_append {early : List Delivery} {batches : List (List Message)}
    (h : Reply.Unfinished host request early batches) (late : Inbox) :
    collect host request (early ++ late) =
      ((late.collect host request).1.map (batches.flatten ++ ·),
        (late.collect host request).2) := by
  obtain ⟨hb, ha, hgo⟩ := h
  induction hb with
  | nil =>
    rcases hc : late.collect host request with ⟨r, rest⟩
    rw [List.nil_append, hc]
    cases r <;> rfl
  | @cons d batch early batches hd hb ih =>
    obtain ⟨ha, has⟩ := List.forall_mem_cons.1 ha
    obtain ⟨hgo, hgos⟩ := List.forall_mem_cons.1 hgo
    rw [List.cons_append, collect, Delivery.answers_eq_ok_iff.2 ⟨hd, ha⟩]
    simp only [Reply.isFinal_eq_false_iff.2 hgo, ih has hgos]
    cases (late.collect host request).1 <;> simp [Except.map]

theorem collect_of_complete {early : List Delivery} {batches : List (List Message)}
    {last : Delivery} {final : List Message}
    (h : Reply.Complete host request early batches last final) (rest : Inbox) :
    collect host request (early ++ last :: rest) = (.ok (batches.flatten ++ final), rest) := by
  rw [collect_append h.toUnfinished, collect_of_ends h.lastBrings h.lastAnswers h.ends]; rfl

theorem collect_of_unfinished {early : List Delivery} {batches : List (List Message)}
    {late : Inbox} {e : Error} (h : Reply.Unfinished host request early batches)
    (hf : Reply.FirstFault host request late e) :
    collect host request (early ++ late) = (.error e, late.tail) := by
  rw [collect_append h, collect_of_fault hf]; rfl

end Inbox

end GenericNetlink
