import GenericNetlink.Proofs.Request.Basic

/-!
How much of a reply a successful request has received.

Whether a reply goes on is decided by each delivery for itself. So the messages of a successful
request, taken together, end a reply (no message is multi-part, or the last one that is is an end
marker) unless the last delivery has no multi-part message and others came before it: then the
reply is cut short there (`Reply.Complete.ends_iff`, `request_ok_received`).
-/

namespace GenericNetlink

/-! ### Replies that are cut short -/

namespace Reply

variable {host : Host} {request : Header} {early : List Delivery} {batches : List (List Message)}
  {last : Delivery} {final : List Message}

/-- A reply that goes on when a batch without multi-part messages comes, and counts as complete
with it. -/
def CutShort (batches : List (List Message)) (final : List Message) : Prop :=
  batches ≠ [] ∧ ∀ m ∈ final, m.isMulti = false

/-- A complete reply without any message is a single delivery without any. -/
theorem Complete.received_eq_nil_iff (h : Complete host request early batches last final) :
    batches.flatten ++ final = [] ↔ early = [] ∧ final = [] := by
  rw [List.append_eq_nil_iff, List.flatten_eq_nil_iff]
  refine and_congr_left fun _ => ⟨fun hnil => ?_, ?_⟩
  · cases h.brings with
    | nil => rfl
    | @cons d batch early batches _ _ =>
      obtain ⟨m, hm, -⟩ := exists_multi_of_not_ends (h.goesOn batch List.mem_cons_self)
      rw [hnil batch List.mem_cons_self] at hm
      exact absurd hm List.not_mem_nil
  · rintro rfl
    cases h.brings with
    | nil => exact fun _ hm => absurd hm List.not_mem_nil

/-- The messages of a complete reply end a reply, taken together, unless it is cut short. -/
theorem Complete.ends_iff (h : Complete host request early batches last final) :
    Ends (batches.flatten ++ final) ↔ ¬ CutShort batches final := by
  by_cases hmulti : ∃ m ∈ final, m.isMulti = true
  · refine iff_of_true ((ends_append_of_multi _ hmulti).2 h.ends) ?_
    rintro ⟨-, hplain⟩
    obtain ⟨m, hm, hmulti⟩ := hmulti
    exact absurd ((hplain m hm).symm.trans hmulti) (by simp)
  · have hplain : ∀ m ∈ final, m.isMulti = false := fun m hm => by
      by_contra hne
      exact hmulti ⟨m, hm, by simpa using hne⟩
    rw [ends_append_of_plain _ hplain]
    -- the last batch that has a multi-part message is then the last one of those that go on
    rcases List.eq_nil_or_concat batches with rfl | ⟨front, batch, rfl⟩
    · exact iff_of_true (Or.inl (by simp)) (fun hcut => hcut.1 rfl)
    · have hgo : ¬ Ends batch := h.goesOn batch (by simp)
      refine iff_of_false (fun hends => hgo ?_) (fun hcut => hcut ⟨by simp, hplain⟩)
      rw [List.concat_eq_append, List.flatten_append, List.flatten_singleton] at hends
      exact (ends_append_of_multi _ (exists_multi_of_not_ends hgo)).1 hends

end Reply

/-! ### Successful requests -/

namespace Connection

variable {σ : Type} [Transport σ] [Mailbox σ]

/-- A successful request has gone out and has received a complete reply, which is without a message
only if it is a single delivery without one. The messages, taken together, end a reply exactly if
it is not cut short, and then a multi-part message comes with an end marker. -/
theorem request_ok_received (c : Connection σ) (m : Message) {replies : List Message}
    (h : (c.request m).1 = .ok replies) :
    ∃ t early batches last final, c.Sent m t ∧
      Mailbox.inbox t = early ++ last :: Mailbox.inbox (c.request m).2.transport ∧
      Reply.Complete c.toHost (c.outgoing m).header early batches last final ∧
      Reply.HandsOver (batches.flatten ++ final) replies ∧
      (batches.flatten ++ final = [] ↔ early = [] ∧ final = []) ∧
      (Reply.Ends (batches.flatten ++ final) ↔ ¬ Reply.CutShort batches final) ∧
      ((∃ x ∈ batches.flatten ++ final, x.isMulti = true) → ¬ Reply.CutShort batches final →
        ∃ d ∈ batches.flatten ++ final, d.isDone = true) := by
  rcases sent_or_error c m with ⟨t, hsent⟩ | ⟨e, hr, -⟩
  · rcases hsent.complete_or_fault with
      ⟨early, batches, last, final, hi, hc, hr⟩ | ⟨_, _, _, e, -, -, -, hr, -⟩
    · have hfinish := Reply.finish_eq_ok_iff.1 (hr.symm.trans h)
      refine ⟨t, early, batches, last, final, hsent, hi, hc, hfinish.2, hc.received_eq_nil_iff,
        hc.ends_iff, fun hmulti hcut => ?_⟩
      obtain ⟨d, hd, -, hdone⟩ := (hc.ends_iff.2 hcut).exists_done hmulti
      exact ⟨d, hd, hdone⟩
    · exact absurd (hr.symm.trans h) (by simp)
  · exact absurd (hr.symm.trans h) (by simp)

/-- A part and an end marker in two datagrams. -/
theorem request_ok_received_of_two_datagrams :
    let part := Message.ofParts 0x1a MessageFlag.multi 5 7 [1]
    let marker := Message.ofParts MessageType.done MessageFlag.multi 5 7 [0, 0, 0, 0]
    let first := Delivery.ofBytes ([part].flatMap (Message.wire .little))
    let second := Delivery.ofBytes ([marker].flatMap (Message.wire .little))
    let c : Connection Script :=
      { transport := { inbox := [first, second] }, sequence := 5, portId := 7, order := .little }
    let m := Message.make 0x1a MessageFlag.dump [1]
    (c.request m).1 = .ok [part] ∧
      ∃ early batches last final,
        [first, second] = early ++ last :: Mailbox.inbox (c.request m).2.transport ∧
        Reply.Complete c.toHost (c.outgoing m).header early batches last final ∧
        (Reply.Ends (batches.flatten ++ final) ↔ ¬ Reply.CutShort batches final) := by
  intro part marker first second c m
  have hsent : c.Sent m c.transport := ⟨rfl, by decide, rfl⟩
  have hcomplete : Reply.Complete c.toHost (c.outgoing m).header [first] [[part]] second [marker] :=
    { brings := .cons (Delivery.brings_wires (by decide)) .nil
      answers := by decide
      goesOn := by decide
      lastBrings := Delivery.brings_wires (by decide)
      lastAnswers := by decide
      ends := by decide }
  have hok : (c.request m).1 = .ok [part] := (request_of_complete hsent rfl hcomplete).1
  obtain ⟨t, early, batches, last, final, hsent', hi, hc, -, -, hends, -⟩ :=
    request_ok_received c m hok
  obtain rfl := (Prod.mk.inj (hsent.sends.symm.trans hsent'.sends)).2
  exact ⟨hok, early, batches, last, final, hi, hc, hends⟩

/-- A datagram too short for a header, or behind a part of a reply one without a multi-part
message, makes a request succeed without a message or with the part alone. The end marker stays
in the inbox. -/
theorem cut_reply_succeeds :
    let part := Message.ofParts 0x1a MessageFlag.multi 5 7 [1]
    let marker := Message.ofParts MessageType.done MessageFlag.multi 5 7 [0, 0, 0, 0]
    let first := Delivery.ofBytes ([part].flatMap (Message.wire .little))
    let short := Delivery.ofBytes [9]
    let late := Delivery.ofBytes ([marker].flatMap (Message.wire .little))
    let holding (inbox : Inbox) : Connection Script :=
      { transport := { inbox }, sequence := 5, portId := 7, order := .little }
    let m := Message.make 0x1a MessageFlag.dump [1]
    ((holding [short]).request m).1 = .ok [] ∧ part.isMulti = true ∧ part.isDone = false ∧
      ((holding [first, short, late]).request m).1 = .ok [part] ∧
      Mailbox.inbox ((holding [first, short, late]).request m).2.transport = [late] := by
  intro part marker first short late holding m
  -- a batch without messages ends any reply
  have hshort : short.Brings (holding []).toHost [] := Delivery.brings_of_short (by decide)
  have hsent (inbox : Inbox) : (holding inbox).Sent m (holding inbox).transport :=
    ⟨rfl, by decide, rfl⟩
  have hnone : Reply.Complete (holding []).toHost ((holding []).outgoing m).header [] [] short [] :=
    { toUnfinished := Reply.unfinished_nil, lastBrings := hshort
      lastAnswers := by decide, ends := by decide }
  have hcut : Reply.Complete (holding []).toHost ((holding []).outgoing m).header [first] [[part]]
      short [] :=
    { brings := .cons (Delivery.brings_wires (by decide)) .nil, answers := by decide
      goesOn := by decide, lastBrings := hshort, lastAnswers := by decide, ends := by decide }
  refine ⟨(request_of_complete (hsent _) rfl hnone).1, by decide, by decide, ?_⟩
  exact request_of_complete (hsent _) rfl hcut

end Connection

end GenericNetlink
