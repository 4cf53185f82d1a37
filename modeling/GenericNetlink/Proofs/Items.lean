import GenericNetlink.Proofs.Grammar
import Mathlib.Algebra.GroupWithZero.Nat

/-!
The items of a stream, whatever its bytes are.

A stream has records and then at most one fault (`Format.exists_items_eq`), and the records stand in
it one behind the other (`Format.Writer.content_prefix_drop`). A reader that is asked for one item
after the other gives just these, and then nothing any more (`Format.next?_left`). Every item takes a
header at least, so what is in the items of a stream is bounded by its length
(`Format.sum_items_le`).
-/

namespace GenericNetlink

namespace Format

variable {α : Type} (f : Format α)

/-! ### Records and a fault -/

/-- The records of a stream, up to its fault if it has one. -/
def records (data : Bytes) : List α := (f.items data).filterMap Except.toOption

variable {f} {data : Bytes} {a : α}

theorem items_of_decode (h : f.decode data = .ok a) :
    f.items data = .ok a :: f.items (f.behind data) := by
  have hd := f.decode_eq_ok_iff.1 h
  rw [f.items_cons (Nat.le_trans hd.1 hd.2.1), h]

theorem records_of_decode (h : f.decode data = .ok a) :
    f.records data = a :: f.records (f.behind data) := by
  rw [records, items_of_decode h]
  rfl

/-- A stream has no record if it does not begin with one. -/
theorem records_of_decode_error {e : Error} (h : f.decode data = .error e) :
    f.records data = [] := by
  rcases Nat.lt_or_ge data.length f.headerSize with hlt | hge
  · rw [records, f.items_of_lt hlt]
    rfl
  · rw [records, f.items_cons hge, h]
    rfl

/-- A stream is its records, and a fault behind them if there is one. -/
theorem exists_items_eq (f : Format α) (data : Bytes) :
    ∃ fault : Option Error,
      f.items data = (f.records data).map .ok ++ fault.toList.map .error := by
  induction data using f.stream_ind with
  | short data hlt =>
    refine ⟨none, ?_⟩
    rw [records, f.items_of_lt hlt]
    rfl
  | fault data e hge h =>
    refine ⟨some e, ?_⟩
    rw [records_of_decode_error h, f.items_cons hge, h]
    rfl
  | record data a h ih =>
    obtain ⟨fault, ih⟩ := ih
    refine ⟨fault, ?_⟩
    rw [items_of_decode h, records_of_decode h, ih]
    rfl

/-- A stream without a fault is its records. -/
theorem records_of_collect {as : List α} (h : f.collect data = .ok as) : f.records data = as := by
  rw [records, f.collect_eq_ok_iff_items.1 h, List.filterMap_map]
  exact List.filterMap_some

/-! ### Where the records stand -/

namespace Writer

variable (w : f.Writer)

/-- The size of header and body. -/
def size (a : α) : Nat := f.headerSize + (w.body a).length

/-- Header and body. -/
def content (a : α) : Bytes := w.header a ++ w.body a

/-- The room that records take before the next one begins. -/
def room (as : List α) : Nat := (as.flatMap w.wire).length

@[simp] theorem length_content (a : α) : (w.content a).length = w.size a := by
  rw [content, List.length_append, w.length_header, size]

@[simp] theorem room_nil : w.room [] = 0 := rfl

@[simp] theorem room_cons (a : α) (as : List α) :
    w.room (a :: as) = wordAlign (w.size a) + w.room as := by
  rw [room, List.flatMap_cons, List.length_append, wire, Bytes.length_padded, ← content,
    length_content, room]

/-- A buffer that begins with a record begins with its header and its body. -/
theorem exists_content (h : f.decode data = .ok a) :
    ∃ rest, data = w.content a ++ rest ∧ w.Sealed a ∧
      f.behind data = data.drop (wordAlign (w.size a)) := by
  obtain ⟨header, body, rest, rfl, hframes, rfl⟩ := exists_frames_of_decode h
  have hheader := w.header_build body hframes.size
  have hbody := w.body_build header body
  refine ⟨rest, ?_, ?_, ?_⟩
  · rw [content, hheader, hbody, List.append_assoc]
  · rw [Sealed, hheader, hbody]
    exact hframes.declares
  · rw [behind, List.take_left' hframes.size, hframes.declares, size, hbody]

/-- The records of a stream stand in it one behind the other. -/
theorem content_prefix_drop {before after : List α} (h : f.records data = before ++ a :: after) :
    w.content a <+: data.drop (w.room before) := by
  induction data using f.stream_ind generalizing before with
  | short data hlt => simp [records, f.items_of_lt hlt] at h
  | fault data e _ hd => simp [records_of_decode_error hd] at h
  | record data b hd ih =>
    obtain ⟨rest, hdata, -, hbehind⟩ := w.exists_content hd
    rw [records_of_decode hd] at h
    cases before with
    | nil =>
      obtain ⟨rfl, -⟩ := List.cons.inj h
      exact ⟨rest, hdata.symm⟩
    | cons b' before =>
      obtain ⟨rfl, hrecords⟩ := List.cons.inj h
      rw [room_cons, ← List.drop_drop, ← hbehind]
      exact ih hrecords

end Writer

/-! ### Asking for one item after the other -/

/-- What is left of a buffer when a reader has been asked for an item; a reader that has come to
its end stays there. -/
def rest (f : Format α) (data : Bytes) : Bytes :=
  match f.next? data with
  | none => data
  | some (_, rest) => rest

/-- What is left of a buffer when a reader has been asked a number of times. -/
def left (f : Format α) : Nat → Bytes → Bytes
  | 0, data => data
  | n + 1, data => left f n (f.rest data)

/-- A reader that is asked again and again gives the items of the stream. -/
theorem next?_left (f : Format α) (n : Nat) (data : Bytes) :
    (f.next? (f.left n data)).map Prod.fst = (f.items data)[n]? := by
  induction n generalizing data with
  | zero =>
    rw [left, f.items_of_next?]
    cases f.next? data <;> rfl
  | succ n ih =>
    rw [left, ih, rest, @items_of_next? _ f data]
    cases hnext : f.next? data with
    | none =>
      rw [f.items_of_next?, hnext]
      rfl
    | some next => rfl

/-- A reader that has come to its end gives nothing any more. -/
theorem next?_left_of_le {f : Format α} {data : Bytes} {m n : Nat} (hle : n ≤ m)
    (h : f.next? (f.left n data) = none) : f.next? (f.left m data) = none := by
  have hend := f.next?_left n data
  rw [h, Option.map_none, eq_comm, List.getElem?_eq_none_iff] at hend
  refine Option.map_eq_none_iff.1 ((f.next?_left m data).trans ?_)
  exact List.getElem?_eq_none (Nat.le_trans hend hle)

/-! ### The room that items take -/

/-- A record at the front of a buffer is that of a header and a body, and these are not among what
is behind it. -/
theorem exists_frames_add_length (h : f.decode data = .ok a) :
    ∃ header body, f.Frames header body ∧ a = f.build header body ∧
      f.headerSize + body.length + (f.behind data).length ≤ data.length := by
  obtain ⟨header, body, rest, rfl, hframes, rfl⟩ := exists_frames_of_decode h
  refine ⟨header, body, hframes, rfl, ?_⟩
  rw [(f.decode_of_frames hframes rest).2, List.length_drop, List.length_append,
    List.length_append, hframes.size]
  omega

/-- A record of a stream is that of a header and a body which the stream has room for. -/
theorem exists_frames_of_mem (h : .ok a ∈ f.items data) :
    ∃ header body, f.Frames header body ∧ a = f.build header body ∧
      f.headerSize + body.length ≤ data.length := by
  induction data using f.stream_ind with
  | short data hlt => simp [f.items_of_lt hlt] at h
  | fault data e hge hd => simp [f.items_cons hge, hd] at h
  | record data b hd ih =>
    obtain ⟨header, body, hframes, rfl, hlen⟩ := exists_frames_add_length hd
    rw [items_of_decode hd, List.mem_cons, Except.ok.injEq] at h
    rcases h with rfl | h
    · exact ⟨header, body, hframes, rfl, by omega⟩
    · obtain ⟨header', body', hframes', rfl, hlen'⟩ := ih h
      exact ⟨header', body', hframes', rfl, by omega⟩

/-- If a fault weighs no more than a header, and a record no more than its header and its body, then
all items of a stream weigh no more than the stream. -/
theorem sum_items_le {weight : Except Error α → Nat} (hfault : ∀ e, weight (.error e) ≤ 1)
    (hrecord : ∀ header body, f.Frames header body →
      f.headerSize * weight (.ok (f.build header body)) ≤ f.headerSize + body.length)
    (data : Bytes) : f.headerSize * ((f.items data).map weight).sum ≤ data.length := by
  induction data using f.stream_ind with
  | short data hlt => simp [f.items_of_lt hlt]
  | fault data e hge hd =>
    rw [f.items_cons hge, hd, List.map_singleton, List.sum_singleton]
    have hone := Nat.mul_le_mul_left f.headerSize (hfault e)
    omega
  | record data a hd ih =>
    obtain ⟨header, body, hframes, rfl, hlen⟩ := exists_frames_add_length hd
    have hfirst := hrecord header body hframes
    rw [items_of_decode hd, List.map_cons, List.sum_cons, Nat.mul_add]
    omega

/-- A stream has no more items than headers would fit into it. -/
theorem length_items_le (f : Format α) (data : Bytes) :
    (f.items data).length ≤ data.length / f.headerSize := by
  have hsum : f.headerSize * ((f.items data).map fun _ => 1).sum ≤ data.length :=
    sum_items_le (fun _ => Nat.le_refl 1) (fun _ _ _ => by omega) data
  rw [List.map_const', List.sum_replicate_nat, Nat.mul_one, Nat.mul_comm] at hsum
  exact (Nat.le_div_iff_mul_le f.headerSize_pos).2 hsum

end Format

end GenericNetlink
