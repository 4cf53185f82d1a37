import GenericNetlink.Proofs.Packing
import GenericNetlink.Proofs.Request.Basic

/-!
Well formed replies, and what comes of them.

The other side answers a request with one plain message, with parts and an end marker, or with an
error record that may have parts before it (`Response`). However the messages are cut into
datagrams, the request gives the data of the reply or the error of its record, and takes exactly
these datagrams out of the inbox (`Connection.request_of_response`).
-/

namespace GenericNetlink

namespace Reply

/-! ### The messages of a reply -/

/-- A message with data for the one who asked: an answer that is no end marker. -/
structure IsData (request : Header) (m : Message) : Prop extends Answers request m where
  notDone : m.isDone = false

/-- A message with data that is part of a multi-part reply. -/
structure IsPart (request : Header) (m : Message) : Prop extends IsData request m where
  multi : m.isMulti = true

/-- The end marker of a multi-part reply. -/
structure IsMarker (request : Header) (m : Message) : Prop extends Answers request m where
  done : m.isDone = true
  multi : m.isMulti = true

/-- An error record with the numbers of the request and a code. -/
structure IsRecord (request : Header) (m : Message) : Prop where
  isError : m.isError = true
  sequence : m.header.sequence = request.sequence
  portId : m.header.portId = request.portId
  hasCode : 4 ≤ m.payload.length

variable {request : Header} {m : Message}

theorem Answers.withLength (h : Answers request m) : Answers request m.withLength :=
  ⟨h.notError, h.sequence, h.portId⟩

theorem answers_of_parts {parts : List Message} (h : ∀ p ∈ parts, IsPart request p) :
    ∀ x ∈ parts.map Message.withLength, Answers request x :=
  List.forall_mem_map.2 fun p hp => (h p hp).toAnswers.withLength

/-- Parts alone do not end a reply. -/
theorem not_ends_of_parts {parts : List Message} (hne : parts ≠ [])
    (h : ∀ p ∈ parts, IsPart request p) : ¬ Ends (parts.map Message.withLength) := by
  rintro (hall | ⟨before, d, after, hsplit, -, hdone, -⟩)
  · obtain ⟨p, hp⟩ := List.exists_mem_of_ne_nil parts hne
    have hplain := hall p.withLength (List.mem_map_of_mem hp)
    rw [Message.isMulti_withLength, (h p hp).multi] at hplain
    exact absurd hplain (by simp)
  · have hd : d ∈ parts.map Message.withLength := by rw [hsplit]; simp
    obtain ⟨p, hp, rfl⟩ := List.mem_map.1 hd
    rw [Message.isDone_withLength, (h p hp).notDone] at hdone
    exact absurd hdone (by simp)

/-- An end marker behind other messages is taken off. -/
theorem finish_concat {front : List Message} {d : Message} (hne : front ≠ [])
    (hfront : ∀ x ∈ front, x.isDone = false) (hdone : d.isDone = true) :
    finish (front ++ [d]) = .ok front := by
  refine finish_eq_ok_iff.2 ⟨?_, Or.inl ⟨hne, d, rfl, hdone⟩⟩
  rintro (⟨x, hx, -⟩ | ⟨x, y, hxy, hx, -⟩)
  · obtain ⟨hnil, -⟩ := List.append_eq_singleton_iff.1 hx |>.resolve_right (by simp)
    exact hne hnil
  · obtain ⟨rfl, -⟩ := List.append_inj' (show front ++ [d] = [x] ++ [y] from hxy) rfl
    exact absurd ((hfront x List.mem_cons_self).symm.trans hx) (by simp)

theorem finish_singleton (h : m.isDone = false) : finish [m] = .ok [m] := by
  simp [finish, withoutEnd, h]

/-! ### Datagrams with parts -/

theorem unfinished_of_packed {host : Host} {groups : List (List Message)} {datagrams : List Bytes}
    (hpacked : List.Forall₂ (Message.Packed host.order) groups datagrams)
    (h : ∀ p ∈ groups.flatten, IsPart request p) :
    Unfinished host request (datagrams.map Delivery.ofBytes)
      (groups.map (List.map Message.withLength)) := by
  induction hpacked with
  | nil => exact unfinished_nil
  | cons hgroup _ ih =>
    rw [List.flatten_cons] at h
    obtain ⟨hhead, htail⟩ := List.forall_mem_append.1 h
    exact (ih htail).cons hgroup.brings (answers_of_parts hhead)
      (not_ends_of_parts hgroup.ne_nil hhead)

/-- Of parts with another message behind them the last datagram brings some parts and that message,
and those before it leave the reply unfinished. -/
theorem unfinished_of_cut {host : Host} {front : List Message} {datagrams : List Bytes}
    (hcut : Message.Cut host.order (front ++ [m]) datagrams) (h : ∀ p ∈ front, IsPart request p) :
    ∃ early batches last, ∃ final : List Message,
      (∀ rest, datagrams.map Delivery.ofBytes ++ rest = early ++ last :: rest) ∧
      Unfinished host request early batches ∧
      last.Brings host (final.map Message.withLength ++ [m.withLength]) ∧
      (∀ p ∈ final, IsPart request p) ∧
      batches.flatten ++ final.map Message.withLength = front.map Message.withLength := by
  obtain ⟨groups, final, early, last, rfl, rfl, hearly, hlast⟩ := hcut.concat
  obtain ⟨hgroups, hfinal⟩ := List.forall_mem_append.1 h
  have hu := unfinished_of_packed hearly hgroups
  refine ⟨_, _, .ofBytes last, final, fun rest => ?_, hu, ?_, hfinal, ?_⟩
  · rw [List.map_append, List.append_assoc]; rfl
  · simpa using hlast.brings
  · rw [List.map_append, List.map_flatten]

end Reply

/-! ### Whole replies -/

/-- A reply as the other side makes it: one message that is not part of a multi-part reply, parts
and an end marker, or an error record, perhaps behind parts. -/
inductive Response where
  | plain (m : Message)
  | parts (front : List Message) (marker : Message)
  | failure (front : List Message) (record : Message)

namespace Response

/-- The messages of a reply, in order. -/
def messages : Response → List Message
  | .plain m => [m]
  | .parts front marker => front ++ [marker]
  | .failure front record => front ++ [record]

/-- The kernel's explanation in an error record. -/
def explanation (order : ByteOrder) (record : Message) : Option String :=
  (ErrorRecord.decode record.header.flags order record.payload).toOption.bind ErrorRecord.text

/-- What a request gives that gets the reply: its data, with lengths set, or the kernel's error. -/
def outcome (order : ByteOrder) : Response → Except Error (List Message)
  | .plain m => .ok [m.withLength]
  | .parts front _ => .ok (front.map Message.withLength)
  | .failure _ record =>
    .error (.ofErrno (order.i32OfBytes (record.payload.take 4)) (explanation order record))

/-- The replies to a request with the given header that are in order. All messages carry the numbers
of the request, an end marker is behind one part at least, and an error record has a code. -/
inductive WellFormed (request : Header) : Response → Prop
  | plain {m : Message} : Reply.IsData request m → m.isMulti = false → WellFormed request (.plain m)
  | parts {front : List Message} {marker : Message} : front ≠ [] →
      (∀ p ∈ front, Reply.IsPart request p) → Reply.IsMarker request marker →
      WellFormed request (.parts front marker)
  | failure {front : List Message} {record : Message} : (∀ p ∈ front, Reply.IsPart request p) →
      Reply.IsRecord request record → WellFormed request (.failure front record)

theorem messages_ne_nil (r : Response) : r.messages ≠ [] := by
  cases r <;> simp [messages]

/-- All messages of a reply carry the number of the request. -/
theorem WellFormed.sequence {request : Header} {r : Response} (h : r.WellFormed request) :
    ∀ m ∈ r.messages, m.header.sequence = request.sequence := by
  cases h with
  | plain hdata _ => exact List.forall_mem_singleton.2 hdata.sequence
  | parts _ hparts hmarker =>
    exact List.forall_mem_append.2
      ⟨fun p hp => (hparts p hp).sequence, List.forall_mem_singleton.2 hmarker.sequence⟩
  | failure hparts hrecord =>
    exact List.forall_mem_append.2
      ⟨fun p hp => (hparts p hp).sequence, List.forall_mem_singleton.2 hrecord.sequence⟩

end Response

namespace Reply

variable {request : Header} {record : Message}

theorem IsRecord.rejected (h : IsRecord request record) (order : ByteOrder) :
    Rejected order request record.withLength
      (.ofErrno (order.i32OfBytes (record.payload.take 4))
        (Response.explanation order record)) := by
  obtain ⟨r, hr, -⟩ := decode_record_of_le record.header.flags order h.hasCode
  have htext : Response.explanation order record = r.text := by
    rw [Response.explanation, hr]; rfl
  rw [htext]
  exact .record h.isError h.hasCode hr

end Reply

/-! ### Requests that get a whole reply -/

namespace Connection

variable {σ : Type} [Transport σ] [Mailbox σ] {c : Connection σ} {m : Message} {t : σ}

/-- A request whose well formed reply is at the head of the inbox gives what the reply comes to,
however it is cut into datagrams, and leaves what is behind it. -/
theorem request_of_response {r : Response} {datagrams : List Bytes} {rest : Inbox}
    (hsent : c.Sent m t) (hr : r.WellFormed (c.outgoing m).header)
    (hcut : Message.Cut c.order r.messages datagrams)
    (hi : Mailbox.inbox t = datagrams.map Delivery.ofBytes ++ rest) :
    (c.request m).1 = r.outcome c.order ∧ Mailbox.inbox (c.request m).2.transport = rest := by
  cases hr with
  | @plain x hdata hplain =>
    -- the one message is behind no parts
    have hcut : Message.Cut c.order ([] ++ [x]) datagrams := hcut
    have hparts : ∀ p ∈ [], Reply.IsPart (c.outgoing m).header p := by simp
    obtain ⟨early, batches, last, final, hsplit, hu, hlast, -, hfront⟩ :=
      Reply.unfinished_of_cut hcut hparts
    rw [hsplit] at hi
    obtain ⟨hnone, hfinal⟩ := List.append_eq_nil_iff.1 hfront
    rw [hfinal, List.nil_append] at hlast
    have hc : Reply.Complete c.toHost (c.outgoing m).header early batches last [x.withLength] :=
      { toUnfinished := hu
        lastBrings := hlast
        lastAnswers := List.forall_mem_singleton.2 hdata.toAnswers.withLength
        ends := Or.inl (List.forall_mem_singleton.2 hplain) }
    obtain ⟨hresult, hrest⟩ := request_of_complete hsent hi hc
    refine ⟨?_, hrest⟩
    rw [hresult, hnone, List.nil_append]
    exact Reply.finish_singleton hdata.notDone
  | @parts front marker hne hparts hmarker =>
    obtain ⟨early, batches, last, final, hsplit, hu, hlast, hfinal, hfront⟩ :=
      Reply.unfinished_of_cut hcut hparts
    rw [hsplit] at hi
    have hc : Reply.Complete c.toHost (c.outgoing m).header early batches last
        (final.map Message.withLength ++ [marker.withLength]) :=
      { toUnfinished := hu
        lastBrings := hlast
        lastAnswers := List.forall_mem_append.2 ⟨Reply.answers_of_parts hfinal,
          List.forall_mem_singleton.2 hmarker.toAnswers.withLength⟩
        ends := Or.inr ⟨_, marker.withLength, [], rfl, hmarker.multi, hmarker.done, by simp⟩ }
    obtain ⟨hresult, hrest⟩ := request_of_complete hsent hi hc
    refine ⟨?_, hrest⟩
    rw [hresult, ← List.append_assoc, hfront]
    exact Reply.finish_concat (by simpa using hne)
      (List.forall_mem_map.2 fun p hp => (hparts p hp).notDone) hmarker.done
  | @failure front record hparts hrecord =>
    obtain ⟨early, batches, last, final, hsplit, hu, hlast, hfinal, -⟩ :=
      Reply.unfinished_of_cut hcut hparts
    rw [hsplit] at hi
    exact request_of_fault hsent hi hu
      (.head (.rejected hlast (Reply.answers_of_parts hfinal) (hrecord.rejected c.order)))

end Connection

end GenericNetlink
