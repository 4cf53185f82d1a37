import GenericNetlink.Proofs.Request.Basic

/-!
Which error record fails a request.

The first message in the inbox that is no answer stops a request, and if it is an error record, an
acknowledgement among them, the request fails with what the record says, whatever the record's own
numbers are. So a record of an earlier request that is still in the inbox fails a later one
(`request_fails_by_record_iff`): the outcome belongs to the request only where no such record comes
first.
-/

namespace GenericNetlink

/-! ### Errors of error records -/

/-- The errors that come of error records: of one with a code, which is zero in an acknowledgement,
or of one too short for it. -/
inductive Error.OfRecord : Error → Prop
  | kernel (errno : Errno) (text : String) : OfRecord (.kernel errno text)
  | invalidErrorCode (size : Nat) : OfRecord (.invalidErrorCode size)

theorem Error.ofRecord_ofErrno (code : Int32) (detail : Option String) :
    (Error.ofErrno code detail).OfRecord := by
  cases detail <;> exact .kernel _ _

namespace Reply

variable {host : Host} {order : ByteOrder} {request : Header} {m r : Message} {e : Error}

/-- A message is rejected with the error of a record exactly if it is one. -/
theorem Rejected.ofRecord_iff (h : Rejected order request m e) :
    e.OfRecord ↔ m.isError = true := by
  cases h with
  | shortRecord he _ => exact iff_of_true (.invalidErrorCode _) he
  | record he _ _ => exact iff_of_true (Error.ofRecord_ofErrno _ _) he
  | sequence he _ => exact iff_of_false (by rintro ⟨⟩) (by simp [he])
  | portId he _ _ => exact iff_of_false (by rintro ⟨⟩) (by simp [he])

/-- The first message of an inbox that is no answer, where nothing before it ends the reply: it is
behind answers in the next delivery, or behind a delivery that leaves the reply unfinished. -/
inductive FirstRejected (host : Host) (request : Header) : Inbox → Message → Prop
  | here {d : Delivery} {rest : Inbox} {before after : List Message} {m : Message} :
      d.Brings host (before ++ m :: after) → (∀ x ∈ before, Answers request x) →
      ¬ Answers request m → FirstRejected host request (d :: rest) m
  | later {d : Delivery} {rest : Inbox} {batch : List Message} {m : Message} :
      d.Brings host batch → (∀ x ∈ batch, Answers request x) → ¬ Ends batch →
      FirstRejected host request rest m → FirstRejected host request (d :: rest) m

/-- In a batch there is only one first message that is no answer. -/
theorem first_unique {before after before' after' : List Message}
    (hsplit : before ++ m :: after = before' ++ r :: after')
    (hbefore : ∀ x ∈ before, Answers request x) (hm : ¬ Answers request m)
    (hbefore' : ∀ x ∈ before', Answers request x) (hr : ¬ Answers request r) : m = r := by
  have hfind (before after : List Message) {m : Message} (hb : ∀ x ∈ before, Answers request x)
      (hm : ¬ Answers request m) :
      (before ++ m :: after).find? (fun x => ¬ Answers request x) = some m :=
    List.find?_eq_some_iff_append.2 ⟨by simpa using hm, before, after, rfl, by simpa using hb⟩
  have hfirst := hfind before after hbefore hm
  rw [hsplit, hfind before' after' hbefore' hr] at hfirst
  exact (Option.some.inj hfirst).symm

theorem FirstRejected.unique {inbox : Inbox} (h : FirstRejected host request inbox m)
    (h' : FirstRejected host request inbox r) : m = r := by
  induction h with
  | here hb hbefore hm =>
    cases h' with
    | here hb' hbefore' hr => exact first_unique (hb.unique hb') hbefore hm hbefore' hr
    | later hb' hall _ _ =>
      rw [hb'.unique hb] at hall
      exact absurd (hall _ (by simp)) hm
  | later hb hall _ _ ih =>
    cases h' with
    | here hb' _ hr =>
      rw [hb.unique hb'] at hall
      exact absurd (hall _ (by simp)) hr
    | later _ _ _ h' => exact ih h'

/-- What is behind deliveries that leave the reply unfinished comes first if it does so there. -/
theorem FirstRejected.append {early : List Delivery} {batches : List (List Message)} {late : Inbox}
    (h : Unfinished host request early batches) (hf : FirstRejected host request late m) :
    FirstRejected host request (early ++ late) m := by
  obtain ⟨hb, ha, hgo⟩ := h
  induction hb with
  | nil => exact hf
  | cons hd _ ih =>
    obtain ⟨ha, has⟩ := List.forall_mem_cons.1 ha
    obtain ⟨hgo, hgos⟩ := List.forall_mem_cons.1 hgo
    exact .later hd ha hgo (ih has hgos)

/-- The first message that is no answer is the first fault of the inbox. -/
theorem FirstRejected.exists_fault {inbox : Inbox} (h : FirstRejected host request inbox m)
    (hm : Rejected host.order request m e) :
    ∃ early batches late, inbox = early ++ late ∧ Unfinished host request early batches ∧
      FirstFault host request late e := by
  induction h with
  | here hb hbefore _ =>
    exact ⟨[], [], _, rfl, unfinished_nil, .head (.rejected hb hbefore hm)⟩
  | later hb ha hgo _ ih =>
    obtain ⟨early, batches, late, rfl, hu, hf⟩ := ih hm
    exact ⟨_ :: early, _ :: batches, late, rfl, hu.cons hb ha hgo, hf⟩

/-- The only fault of an inbox with the error of a record is an error record that comes first. -/
theorem FirstFault.exists_record {late : Inbox} (h : FirstFault host request late e)
    (he : e.OfRecord) :
    ∃ r, FirstRejected host request late r ∧ r.isError = true ∧
      Rejected host.order request r e := by
  cases h with
  | dry => cases he
  | head hf =>
    cases hf with
    | unseen | untaken | malformed => cases he
    | rejected hb hbefore hm =>
      exact ⟨_, .here hb hbefore hm.not_answers, hm.ofRecord_iff.1 he, hm⟩

end Reply

/-! ### Requests that an error record fails -/

namespace Connection

variable {σ : Type} [Transport σ] [Mailbox σ] {c : Connection σ} {m r : Message} {e : Error}

/-- The request goes out and fails by the given error record or acknowledgement: it is the first
message in the inbox that is no answer to the request. -/
structure FailsBy (c : Connection σ) (m r : Message) : Prop where
  first : ∃ t, c.Sent m t ∧ Reply.FirstRejected c.toHost (c.outgoing m).header (Mailbox.inbox t) r
  isRecord : r.isError = true

theorem FailsBy.unique {r' : Message} (h : c.FailsBy m r) (h' : c.FailsBy m r') : r = r' := by
  obtain ⟨t, hsent, hr⟩ := h.first
  obtain ⟨t', hsent', hr'⟩ := h'.first
  obtain rfl := (Prod.mk.inj (hsent.sends.symm.trans hsent'.sends)).2
  exact hr.unique hr'

theorem FailsBy.request_eq (h : c.FailsBy m r)
    (hr : Reply.Rejected c.order (c.outgoing m).header r e) : (c.request m).1 = .error e := by
  obtain ⟨t, hsent, hfirst⟩ := h.first
  obtain ⟨early, batches, late, hi, hu, hf⟩ := hfirst.exists_fault hr
  exact (request_of_fault hsent hi hu hf).1

/-- A request that fails with the error of a record fails by some record. -/
theorem exists_failsBy (h : (c.request m).1 = .error e) (he : e.OfRecord) :
    ∃ r, c.FailsBy m r ∧ Reply.Rejected c.order (c.outgoing m).header r e := by
  rcases sent_or_error c m with ⟨t, hsent⟩ | ⟨e', hr, hunsent⟩
  · rcases hsent.complete_or_fault with
      ⟨early, batches, last, final, -, -, hr⟩ | ⟨early, batches, late, e', hi, hu, hf, hr, -⟩
    · obtain rfl := (Reply.finish_eq_error_iff.1 (hr.symm.trans h)).2
      cases he
    · obtain rfl := Except.error.inj (hr.symm.trans h)
      obtain ⟨r, hfirst, hrecord, hrejected⟩ := hf.exists_record he
      exact ⟨r, ⟨⟨t, hsent, hi ▸ hfirst.append hu⟩, hrecord⟩, hrejected⟩
  · obtain rfl := Except.error.inj (hr.symm.trans h)
    rcases hunsent with rfl | rfl | ⟨errno, rfl⟩ <;> cases he

/-- A request fails with the error of a record exactly if it fails by a record that says so, which
may be one of an earlier request. The failure is owed to a record with the sequence number of the
request exactly if no record with another one comes first. -/
theorem request_fails_by_record_iff (c : Connection σ) (m : Message) :
    (∀ e, ((c.request m).1 = .error e ∧ e.OfRecord) ↔
      ∃ r, c.FailsBy m r ∧ Reply.Rejected c.order (c.outgoing m).header r e) ∧
    ((∀ e, (c.request m).1 = .error e → e.OfRecord →
        ∃ r, c.FailsBy m r ∧ Reply.Rejected c.order (c.outgoing m).header r e ∧
          r.header.sequence = c.sequence) ↔
      ¬ ∃ r, c.FailsBy m r ∧ r.header.sequence ≠ c.sequence) := by
  refine ⟨fun e => ⟨fun ⟨h, he⟩ => exists_failsBy h he, ?_⟩, ?_, ?_⟩
  · rintro ⟨r, hby, hr⟩
    exact ⟨hby.request_eq hr, hr.ofRecord_iff.2 hby.isRecord⟩
  · -- the record that comes first fails the request, and no other one does
    rintro hclaim ⟨r, hby, hne⟩
    rcases Reply.answers_or_rejected c.order (c.outgoing m).header r with ha | ⟨e, hr⟩
    · exact absurd (ha.notError.symm.trans hby.isRecord) (by simp)
    · obtain ⟨r', hby', -, heq⟩ := hclaim e (hby.request_eq hr) (hr.ofRecord_iff.2 hby.isRecord)
      exact hne (hby.unique hby' ▸ heq)
  · intro hnone e h he
    obtain ⟨r, hby, hr⟩ := exists_failsBy h he
    refine ⟨r, hby, hr, ?_⟩
    by_contra hne
    exact hnone ⟨r, hby, hne⟩

/-- The acknowledgement of request 5, left in the inbox behind its answer, fails request 6, whose
own answer comes behind it. -/
theorem earlier_ack_fails_request :
    let ack := Message.ofParts MessageType.error 0 5 7 [0, 0, 0, 0]
    let answer := Message.ofParts 0x1a 0 6 7 [1]
    let late := Delivery.ofBytes ([answer].flatMap (Message.wire .little))
    let c : Connection Script :=
      { transport := { inbox := [Delivery.ofBytes ([ack].flatMap (Message.wire .little)), late] }
        sequence := 6, portId := 7, order := .little }
    let m := Message.make 0x1a MessageFlag.request [1]
    c.FailsBy m ack ∧ ack.header.sequence ≠ c.sequence ∧
      (c.request m).1 = .error (.ofErrno 0 none) ∧
      Mailbox.inbox (c.request m).2.transport = [late] := by
  intro ack answer late c m
  have hsent : c.Sent m c.transport := ⟨rfl, by decide, rfl⟩
  have hack : Delivery.Brings c.toHost _ ([] ++ ack :: []) := Delivery.brings_wires (by decide)
  have hrejected : Reply.Rejected c.order (c.outgoing m).header ack (.ofErrno 0 none) :=
    .record (m := ack) rfl (by decide) rfl
  refine ⟨⟨⟨_, hsent, .here hack (by simp) hrejected.not_answers⟩, rfl⟩, by decide, ?_⟩
  exact request_of_fault hsent rfl Reply.unfinished_nil (.head (.rejected hack (by simp) hrejected))

end Connection

end GenericNetlink
