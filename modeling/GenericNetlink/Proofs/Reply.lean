import GenericNetlink.Reply
import Mathlib.Data.List.Induction

/-!
What answers a request, what ends a reply, and what is handed over of it, each said without the
scan that finds it out.

Three pairs: `Reply.fault` finds nothing exactly in an answer and otherwise the reason for which a
message is rejected (`fault_eq_none_iff`, `fault_eq_some_iff`); `Reply.isFinal` holds exactly of
the batches that end a reply (`isFinal_iff`); `Reply.finish` fails exactly for bare end markers and
otherwise hands over everything but an end marker behind the rest (`finish_eq_ok_iff`,
`finish_eq_error_iff`).
-/

namespace GenericNetlink.Reply

/-! ### Answers and rejected messages -/

/-- An answer to a request: neither an error record nor an acknowledgement, and with the numbers of
the request. -/
structure Answers (request : Header) (m : Message) : Prop where
  notError : m.isError = false
  sequence : m.header.sequence = request.sequence
  portId : m.header.portId = request.portId

instance (request : Header) (m : Message) : Decidable (Answers request m) :=
  decidable_of_iff (m.isError = false ∧ m.header.sequence = request.sequence ∧
      m.header.portId = request.portId)
    ⟨fun ⟨he, hs, hp⟩ => ⟨he, hs, hp⟩, fun ⟨he, hs, hp⟩ => ⟨he, hs, hp⟩⟩

/-- Why a message that is no answer is rejected. An error record, an acknowledgement among them,
speaks for itself, whatever its numbers are; otherwise the sequence number comes before the port. -/
inductive Rejected (order : ByteOrder) (request : Header) (m : Message) : Error → Prop
  | shortRecord : m.isError = true → m.payload.length < 4 →
      Rejected order request m (.invalidErrorCode m.payload.length)
  | record {r : ErrorRecord} : m.isError = true → 4 ≤ m.payload.length →
      ErrorRecord.decode m.header.flags order m.payload = .ok r →
      Rejected order request m (.ofErrno (order.i32OfBytes (m.payload.take 4)) r.text)
  | sequence : m.isError = false → m.header.sequence ≠ request.sequence →
      Rejected order request m (.sequenceMismatch request.sequence m.header.sequence)
  | portId : m.isError = false → m.header.sequence = request.sequence →
      m.header.portId ≠ request.portId →
      Rejected order request m (.portIdMismatch request.portId m.header.portId)

/-- Reading an error record fails exactly if its code is cut off. -/
theorem decode_record_of_lt {flags : UInt16} {order : ByteOrder} {payload : Bytes}
    (h : payload.length < 4) :
    ErrorRecord.decode flags order payload = .error (.invalidErrorCode payload.length) := by
  simp [ErrorRecord.decode, Nat.not_le.2 h]

theorem decode_record_of_le (flags : UInt16) (order : ByteOrder) {payload : Bytes}
    (h : 4 ≤ payload.length) :
    ∃ r, ErrorRecord.decode flags order payload = .ok r ∧
      r.code = order.i32OfBytes (payload.take 4) := by
  unfold ErrorRecord.decode
  rw [if_pos (Bytes.hasAtLeast_iff.2 h)]
  exact ⟨_, rfl, rfl⟩

variable {order : ByteOrder} {request : Header} {m : Message}

theorem fault_eq_none_iff : fault order request m = none ↔ Answers request m := by
  constructor
  · intro h
    unfold fault at h
    split at h
    · split at h <;> simp at h
    · next he =>
      split at h
      · simp at h
      · next hs =>
        split at h
        · simp at h
        · next hp => exact ⟨by simpa using he, not_not.1 hs, not_not.1 hp⟩
  · rintro ⟨he, hs, hp⟩
    simp [fault, he, hs, hp]

theorem fault_eq_some_iff {e : Error} :
    fault order request m = some e ↔ Rejected order request m e := by
  constructor
  · intro h
    unfold fault at h
    split at h
    · next he =>
      rcases Nat.lt_or_ge m.payload.length 4 with hlt | hge
      · rw [decode_record_of_lt hlt] at h
        obtain rfl := Option.some.inj h
        exact .shortRecord he hlt
      · obtain ⟨r, hr, hcode⟩ := decode_record_of_le m.header.flags order hge
        rw [hr] at h
        obtain rfl := Option.some.inj h
        rw [ErrorRecord.toError, hcode]
        exact .record he hge hr
    · next he =>
      have he : m.isError = false := by simpa using he
      split at h
      · next hs => obtain rfl := Option.some.inj h; exact .sequence he hs
      · next hs =>
        split at h
        · next hp => obtain rfl := Option.some.inj h; exact .portId he (not_not.1 hs) hp
        · simp at h
  · intro h
    cases h with
    | shortRecord he hlt => simp [fault, he, decode_record_of_lt hlt]
    | record he hge hr =>
      obtain ⟨r', hr', hcode⟩ := decode_record_of_le m.header.flags order hge
      obtain rfl := Except.ok.inj (hr'.symm.trans hr)
      simp [fault, he, hr, ErrorRecord.toError, hcode]
    | sequence he hs => simp [fault, he, hs]
    | portId he hs hp => simp [fault, he, hs, hp]

/-- A message is either an answer or rejected for some reason. -/
theorem answers_or_rejected (order : ByteOrder) (request : Header) (m : Message) :
    Answers request m ∨ ∃ e, Rejected order request m e := by
  cases h : fault order request m with
  | none => exact Or.inl (fault_eq_none_iff.1 h)
  | some e => exact Or.inr ⟨e, fault_eq_some_iff.1 h⟩

theorem Rejected.not_answers {e : Error} (h : Rejected order request m e) :
    ¬ Answers request m := by
  intro ha
  rw [← fault_eq_some_iff, fault_eq_none_iff.2 ha] at h
  simp at h

/-! ### Batches that end a reply -/

/-- A batch that ends a reply: no message of it is multi-part, or the last one that is is an end
marker. -/
def Ends (batch : List Message) : Prop :=
  (∀ m ∈ batch, m.isMulti = false) ∨
    ∃ before m after, batch = before ++ m :: after ∧ m.isMulti = true ∧ m.isDone = true ∧
      ∀ x ∈ after, x.isMulti = false

/-- The last multi-part message of a batch has no other behind it. -/
theorem last_multi_eq_some_iff {batch : List Message} :
    (batch.filter (·.isMulti)).getLast? = some m ↔ m.isMulti = true ∧
      ∃ before after, batch = before ++ m :: after ∧ ∀ x ∈ after, x.isMulti = false := by
  rw [List.getLast?_filter, List.find?_eq_some_iff_append]
  refine and_congr_right fun _ => ⟨?_, ?_⟩
  · rintro ⟨after, before, hsplit, hafter⟩
    refine ⟨before.reverse, after.reverse, ?_, fun x hx => ?_⟩
    · rw [← List.reverse_reverse batch, hsplit]; simp
    · simpa using hafter x (List.mem_reverse.1 hx)
  · rintro ⟨before, after, rfl, hafter⟩
    exact ⟨after.reverse, before.reverse, by simp, fun x hx => by
      simpa using hafter x (List.mem_reverse.1 hx)⟩

theorem isFinal_iff {batch : List Message} : isFinal batch = true ↔ Ends batch := by
  unfold isFinal
  split
  · next m hm =>
    obtain ⟨hmulti, before, after, hsplit, hafter⟩ := last_multi_eq_some_iff.1 hm
    constructor
    · intro hd
      exact Or.inr ⟨before, m, after, hsplit, hmulti, hd, hafter⟩
    · rintro (hall | ⟨before', d, after', hsplit', hd, hdone, hafter'⟩)
      · have := hall m (by rw [hsplit]; simp)
        rw [hmulti] at this; exact absurd this (by simp)
      · have := last_multi_eq_some_iff.2 ⟨hd, before', after', hsplit', hafter'⟩
        obtain rfl := Option.some.inj (hm.symm.trans this)
        exact hdone
  · next hnone =>
    have hall := List.filter_eq_nil_iff.1 (List.getLast?_eq_none_iff.1 hnone)
    exact iff_of_true rfl (Or.inl fun m hm => by simpa using hall m hm)

instance : DecidablePred Ends := fun _ => decidable_of_iff _ isFinal_iff

theorem isFinal_eq_false_iff {batch : List Message} : isFinal batch = false ↔ ¬ Ends batch := by
  rw [← isFinal_iff, Bool.not_eq_true]

/-- A batch that does not end a reply has a multi-part message. -/
theorem exists_multi_of_not_ends {batch : List Message} (h : ¬ Ends batch) :
    ∃ m ∈ batch, m.isMulti = true := by
  by_contra hnone
  exact h (Or.inl fun m hm => by
    by_contra hm'
    exact hnone ⟨m, hm, by simpa using hm'⟩)

/-- A batch that ends a reply has an end marker, or else no multi-part message. -/
theorem Ends.exists_done {batch : List Message} (h : Ends batch)
    (hmulti : ∃ m ∈ batch, m.isMulti = true) : ∃ d ∈ batch, d.isMulti = true ∧ d.isDone = true := by
  rcases h with hall | ⟨before, d, after, rfl, hd, hdone, -⟩
  · obtain ⟨m, hm, hm'⟩ := hmulti
    rw [hall m hm] at hm'; exact absurd hm' (by simp)
  · exact ⟨d, by simp, hd, hdone⟩

/-- Behind a batch, messages that are not multi-part change nothing. -/
theorem ends_append_of_plain (front : List Message) {batch : List Message}
    (h : ∀ m ∈ batch, m.isMulti = false) : Ends (front ++ batch) ↔ Ends front := by
  have hnone : batch.filter (·.isMulti) = [] := by
    rw [List.filter_eq_nil_iff]
    intro m hm
    simp [h m hm]
  rw [← isFinal_iff, ← isFinal_iff, isFinal, isFinal, List.filter_append, hnone, List.append_nil]

/-- A batch with a multi-part message decides for all that is before it. -/
theorem ends_append_of_multi (front : List Message) {batch : List Message}
    (h : ∃ m ∈ batch, m.isMulti = true) : Ends (front ++ batch) ↔ Ends batch := by
  obtain ⟨m, hm, hmulti⟩ := h
  have hne : batch.filter (·.isMulti) ≠ [] :=
    List.ne_nil_of_mem (List.mem_filter.2 ⟨hm, hmulti⟩)
  obtain ⟨d, hd⟩ := Option.isSome_iff_exists.1 (List.getLast?_isSome.2 hne)
  rw [← isFinal_iff, ← isFinal_iff, isFinal, isFinal, List.filter_append, List.getLast?_append, hd,
    Option.some_or]

/-! ### What is handed over -/

/-- A reply that is nothing but end markers, one or two of them. -/
def OnlyMarkers (messages : List Message) : Prop :=
  (∃ d, messages = [d] ∧ d.isDone = true) ∨
    ∃ d e, messages = [d, e] ∧ d.isDone = true ∧ e.isDone = true

/-- The messages have an end marker at the end, behind others. -/
def EndMarked (messages kept : List Message) : Prop :=
  kept ≠ [] ∧ ∃ d, messages = kept ++ [d] ∧ d.isDone = true

/-- What is handed over of the messages of a reply: all of them in order, without the end marker
behind others. -/
def HandsOver (messages kept : List Message) : Prop :=
  EndMarked messages kept ∨ (kept = messages ∧ ∀ front, ¬ EndMarked messages front)

theorem HandsOver.mem {messages kept : List Message} (h : HandsOver messages kept) :
    ∀ m ∈ kept, m ∈ messages := by
  intro m hm
  rcases h with ⟨-, d, rfl, -⟩ | ⟨rfl, -⟩
  · exact List.mem_append_left _ hm
  · exact hm

theorem withoutEnd_concat (front : List Message) (d : Message) :
    withoutEnd (front ++ [d]) = if front ≠ [] ∧ d.isDone = true then front else front ++ [d] := by
  have hlen : 1 < (front ++ [d]).length ↔ front ≠ [] := by
    rw [List.length_append, List.length_singleton, Nat.lt_add_left_iff_pos, List.length_pos_iff]
  simp only [withoutEnd, hlen, List.getLast?_concat, Option.any_some, List.dropLast_concat]

theorem endMarked_concat_iff {front kept : List Message} {d : Message} :
    EndMarked (front ++ [d]) kept ↔ kept = front ∧ front ≠ [] ∧ d.isDone = true := by
  constructor
  · rintro ⟨hne, d', hsplit, hd⟩
    obtain ⟨rfl, rfl⟩ := List.concat_inj.1 (by simpa using hsplit)
    exact ⟨rfl, hne, hd⟩
  · rintro ⟨rfl, hne, hd⟩
    exact ⟨hne, d, rfl, hd⟩

theorem withoutEnd_eq_iff {messages kept : List Message} :
    withoutEnd messages = kept ↔ HandsOver messages kept := by
  rcases List.eq_nil_or_concat messages with rfl | ⟨front, d, rfl⟩
  · have hnone : ∀ front, ¬ EndMarked [] front := by rintro front ⟨-, d, hsplit, -⟩; simp at hsplit
    simp [HandsOver, hnone, withoutEnd, eq_comm]
  · rw [List.concat_eq_append, withoutEnd_concat, HandsOver, endMarked_concat_iff]
    split
    · next hc =>
      constructor
      · rintro rfl
        exact Or.inl ⟨rfl, hc⟩
      · rintro (⟨rfl, -⟩ | ⟨-, hnone⟩)
        · rfl
        · exact absurd (endMarked_concat_iff.2 ⟨rfl, hc⟩) (hnone front)
    · next hc =>
      constructor
      · rintro rfl
        exact Or.inr ⟨rfl, fun k hk => hc (endMarked_concat_iff.1 hk).2⟩
      · rintro (⟨-, hc'⟩ | ⟨rfl, -⟩)
        · exact absurd hc' hc
        · rfl

/-- Only end markers leave one end marker as all that is kept. -/
theorem onlyMarkers_iff {messages : List Message} :
    OnlyMarkers messages ↔ ∃ d, withoutEnd messages = [d] ∧ d.isDone = true := by
  constructor
  · rintro (⟨d, rfl, hd⟩ | ⟨d, e, rfl, hd, he⟩)
    · exact ⟨d, by simp [withoutEnd], hd⟩
    · exact ⟨d, by simp [withoutEnd, he], hd⟩
  · rintro ⟨d, hkept, hd⟩
    rcases withoutEnd_eq_iff.1 hkept with ⟨-, e, rfl, he⟩ | ⟨rfl, -⟩
    · exact Or.inr ⟨d, e, rfl, hd, he⟩
    · exact Or.inl ⟨d, rfl, hd⟩

theorem finish_eq_error_iff {messages : List Message} {e : Error} :
    finish messages = .error e ↔ OnlyMarkers messages ∧ e = .unexpectedDone := by
  rw [onlyMarkers_iff]
  unfold finish
  split
  · next d hkept =>
    split
    · next hd =>
      refine ⟨fun h => ⟨⟨d, hkept, hd⟩, (Except.error.inj h).symm⟩, ?_⟩
      rintro ⟨-, rfl⟩; rfl
    · next hd => simp [hkept, hd]
  · next hkept =>
    simp only [reduceCtorEq, false_iff]
    rintro ⟨⟨d, hd, -⟩, -⟩
    exact hkept d hd

theorem finish_eq_ok_iff {messages kept : List Message} :
    finish messages = .ok kept ↔ ¬ OnlyMarkers messages ∧ HandsOver messages kept := by
  rw [onlyMarkers_iff, ← withoutEnd_eq_iff]
  unfold finish
  split
  · next d hkept =>
    split
    · next hd => simp [hkept, hd]
    · next hd => simp [hkept, hd]
  · next hkept =>
    refine ⟨fun h => ⟨?_, Except.ok.inj h⟩, fun h => congrArg _ h.2⟩
    rintro ⟨d, hd, -⟩
    exact hkept d hd

end GenericNetlink.Reply
