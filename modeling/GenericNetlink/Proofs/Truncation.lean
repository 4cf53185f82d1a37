import GenericNetlink.Proofs.Attribute.Canonical
import GenericNetlink.Proofs.Items
import GenericNetlink.Proofs.Message.Canonical

/-!
Streams of which only the first bytes are there.

A record is read as long as its header and its body are there (`Format.Writer.decode_take_iff`), so
a stream that is cut off has the records that end before the cut, and behind them at most one fault
(`Format.Writer.truncated`). None is altered, and none is invented. For messages and attributes, one
alone or a stream of them, this is `Format.items_of_first_bytes`.
-/

namespace GenericNetlink

namespace Format

variable {α : Type} {f : Format α} {data : Bytes} {a : α}

/-- A record is read whatever is put behind the buffer. -/
theorem decode_append (h : f.decode data = .ok a) (more : Bytes) :
    f.decode (data ++ more) = .ok a := by
  obtain ⟨header, body, rest, rfl, hframes, rfl⟩ := exists_frames_of_decode h
  rw [List.append_assoc, List.append_assoc]
  exact (f.decode_of_frames hframes (rest ++ more)).1

/-- What is put behind a stream that ends at a word boundary is read behind it. If a header is a word
long, such a stream has no tail. -/
theorem items_append {front : Bytes} {as : List α} (hheader : f.headerSize = wordSize)
    (hmod : front.length % 4 = 0) (h : f.items front = as.map .ok) (rest : Bytes) :
    f.items (front ++ rest) = as.map .ok ++ f.items rest := by
  induction front using f.stream_ind generalizing as with
  | short front hlt =>
    -- whole words that are too short for a header are none
    have hnil : front = [] := by
      rw [hheader, wordSize] at hlt
      exact List.eq_nil_of_length_eq_zero (by omega)
    rw [← h, f.items_of_lt hlt, hnil]
    rfl
  | fault front e hge hd =>
    rw [f.items_cons hge, hd] at h
    cases as <;> simp at h
  | record front a hd ih =>
    obtain ⟨hlow, hhigh, -⟩ := f.decode_eq_ok_iff.1 hd
    have hword : wordAlign (f.declared (front.take f.headerSize)) ≤ front.length := by
      unfold wordAlign
      omega
    have hbehind : f.behind (front ++ rest) = f.behind front ++ rest := by
      rw [behind, List.take_append_of_le_length (Nat.le_trans hlow hhigh),
        List.drop_append_of_le_length hword, behind]
    have hmodBehind : (f.behind front).length % 4 = 0 := by
      have := wordAlign_mod (f.declared (front.take f.headerSize))
      rw [behind, List.length_drop]
      omega
    rw [items_of_decode hd] at h
    obtain ⟨b, bs, rfl, hb, hbs⟩ := List.map_eq_cons_iff.1 h.symm
    rw [items_of_decode (decode_append hd rest), hbehind, ih hmodBehind hbs.symm, List.map_cons, hb,
      List.cons_append]

/-- Where no record is, there is none in the first bytes either. -/
theorem records_take_of_decode_error {e : Error} (h : f.decode data = .error e) (size : Nat) :
    f.records (data.take size) = [] := by
  cases htake : f.decode (data.take size) with
  | error e => exact records_of_decode_error htake
  | ok b =>
    have hb := decode_append htake (data.drop size)
    rw [List.take_append_drop, h] at hb
    exact absurd hb (by simp)

namespace Writer

variable (w : f.Writer)

/-- A record is read of the first bytes of a buffer exactly if it is read of all of it, and its
header and its body are among these bytes. -/
theorem decode_take_iff {size : Nat} :
    f.decode (data.take size) = .ok a ↔ f.decode data = .ok a ∧ w.size a ≤ size := by
  constructor
  · intro h
    obtain ⟨rest, hdata, -⟩ := w.exists_content h
    refine ⟨?_, ?_⟩
    · rw [← List.take_append_drop size data]
      exact decode_append h _
    · have hlen := congrArg List.length hdata
      rw [List.length_take, List.length_append, length_content] at hlen
      omega
  · rintro ⟨h, hle⟩
    obtain ⟨rest, rfl, hsealed, -⟩ := w.exists_content h
    rw [List.take_append, List.take_of_length_le (by rwa [length_content]), content,
      List.append_assoc, (f.decode_of_frames hsealed.frames _).1, w.build_eq]

/-- Behind a record that is not cut off, what is cut off is what was behind it. -/
theorem records_take_of_le {size : Nat} (h : f.decode data = .ok a) (hle : w.size a ≤ size) :
    f.records (data.take size) =
      a :: f.records ((f.behind data).take (size - wordAlign (w.size a))) := by
  have htake := w.decode_take_iff.2 ⟨h, hle⟩
  obtain ⟨-, -, -, hbehind⟩ := w.exists_content h
  obtain ⟨-, -, -, hbehind'⟩ := w.exists_content htake
  rw [records_of_decode htake, hbehind', hbehind, List.drop_take]

/-- Behind a record that is cut off there is nothing. -/
theorem records_take_of_lt {size : Nat} (h : f.decode data = .ok a) (hlt : size < w.size a) :
    f.records (data.take size) = [] := by
  cases htake : f.decode (data.take size) with
  | error e => exact records_of_decode_error htake
  | ok b =>
    obtain ⟨hb, hle⟩ := w.decode_take_iff.1 htake
    obtain rfl : b = a := Except.ok.inj (hb.symm.trans h)
    omega

/-- The first bytes of a stream have records of it, from the first one on. -/
theorem records_take_prefix (w : f.Writer) (size : Nat) :
    f.records (data.take size) <+: f.records data := by
  induction data using f.stream_ind generalizing size with
  | short data hlt =>
    have hshort : (data.take size).length < f.headerSize := by
      rw [List.length_take]
      omega
    simp [records, f.items_of_lt hshort]
  | fault data e _ hd =>
    rw [records_take_of_decode_error hd]
    exact List.nil_prefix
  | record data a hd ih =>
    rcases Nat.lt_or_ge size (w.size a) with hlt | hle
    · rw [w.records_take_of_lt hd hlt]
      exact List.nil_prefix
    · rw [w.records_take_of_le hd hle, records_of_decode hd]
      exact List.cons_prefix_cons.2 ⟨rfl, ih _⟩

/-- A record of a stream is among those of the first bytes exactly if it ends within these. -/
theorem concat_prefix_records_take_iff {size : Nat} {before after : List α}
    (h : f.records data = before ++ a :: after) :
    before ++ [a] <+: f.records (data.take size) ↔ w.room before + w.size a ≤ size := by
  induction data using f.stream_ind generalizing before size with
  | short data hlt => simp [records, f.items_of_lt hlt] at h
  | fault data e _ hd => simp [records_of_decode_error hd] at h
  | record data b hd ih =>
    have hpos := f.headerSize_pos
    have hsize : f.headerSize ≤ w.size a := Nat.le_add_right ..
    have hword := le_wordAlign (w.size b)
    rw [records_of_decode hd] at h
    rcases Nat.lt_or_ge size (w.size b) with hlt | hle
    · -- the first record is cut off, and with it all others
      rw [w.records_take_of_lt hd hlt, List.prefix_nil]
      refine iff_of_false (by simp) ?_
      cases before with
      | nil =>
        obtain ⟨rfl, -⟩ := List.cons.inj h
        rw [room_nil]
        omega
      | cons b' before =>
        obtain ⟨rfl, -⟩ := List.cons.inj h
        rw [room_cons]
        omega
    · rw [w.records_take_of_le hd hle]
      cases before with
      | nil =>
        obtain ⟨rfl, -⟩ := List.cons.inj h
        simpa using hle
      | cons b' before =>
        obtain ⟨rfl, hrecords⟩ := List.cons.inj h
        rw [List.cons_append, List.cons_prefix_cons, and_iff_right rfl, ih hrecords, room_cons]
        omega

/-- What the first bytes of a stream have of its items: the first records of the stream, and at most
one fault behind these. A record stands where the ones before it end, and is kept exactly if its
header and its body are among the first bytes. -/
structure Truncated (data : Bytes) (size : Nat) : Prop where
  ends : ∃ fault : Option Error, f.items (data.take size) =
    (f.records (data.take size)).map .ok ++ fault.toList.map .error
  leads : f.records (data.take size) <+: f.records data
  stands {before after : List α} {a : α} : f.records data = before ++ a :: after →
    w.content a <+: data.drop (w.room before)
  kept_iff {before after : List α} {a : α} : f.records data = before ++ a :: after →
    (before ++ [a] <+: f.records (data.take size) ↔ w.room before + w.size a ≤ size)

theorem truncated (data : Bytes) (size : Nat) : w.Truncated data size where
  ends := f.exists_items_eq _
  leads := w.records_take_prefix size
  stands := w.content_prefix_drop
  kept_iff := w.concat_prefix_records_take_iff

/-- The first bytes of a record that was written give it if its header and its body are among them,
and otherwise nothing. -/
theorem decode_take_wire (h : w.Sealed a) (size : Nat) :
    (w.size a ≤ size → f.decode ((w.wire a).take size) = .ok a) ∧
    (size < w.size a → ∃ e, f.decode ((w.wire a).take size) = .error e) := by
  have hread := (decode_wire_append h []).1
  rw [List.append_nil] at hread
  refine ⟨fun hle => w.decode_take_iff.2 ⟨hread, hle⟩, fun hlt => ?_⟩
  cases htake : f.decode ((w.wire a).take size) with
  | error e => exact ⟨e, rfl⟩
  | ok b =>
    obtain ⟨hb, hle⟩ := w.decode_take_iff.1 htake
    obtain rfl : b = a := Except.ok.inj (hb.symm.trans hread)
    omega

end Writer

end Format

variable {order : ByteOrder} {b : Bytes}

/-- The first bytes of an encoded message give it if they are as many as its header declares, and
are malformed if they are fewer. -/
theorem Message.decode_take_of_encode {m n : Message} (h : m.encode order = .ok (n, b))
    (size : Nat) :
    (n.header.length.toNat ≤ size → decode order (b.take size) = .ok n) ∧
    (size < n.header.length.toNat →
      ∃ fault, decode order (b.take size) = .error (.malformedMessage fault)) := by
  obtain ⟨hfits, rfl, rfl⟩ := encode_eq_ok_iff.1 h
  have hsealed := sealed_withLength hfits
  obtain ⟨hwhole, hcut⟩ := (writer order).decode_take_wire (hsealed.writer order) size
  rw [hsealed]
  refine ⟨hwhole, fun hlt => ?_⟩
  obtain ⟨e, he⟩ := hcut hlt
  obtain ⟨fault, rfl⟩ := malformed_of_decode he
  exact ⟨fault, he⟩

/-- So do the first bytes of an encoded attribute. -/
theorem Attribute.decode_take_of_encode {a a' : Attribute} (h : a.encode order = .ok (a', b))
    (size : Nat) :
    (a'.length.toNat ≤ size → decode order (b.take size) = .ok a') ∧
    (size < a'.length.toNat →
      ∃ fault, decode order (b.take size) = .error (.invalidAttribute fault)) := by
  rcases Nat.lt_or_ge maxValueSize a.value.length with hlarge | hfits
  · rw [encode_of_lt hlarge] at h
    simp at h
  · rw [encode_of_le hfits] at h
    obtain ⟨rfl, rfl⟩ := Prod.mk.inj (Except.ok.inj h)
    have hsealed : (small a.type a.value).Sealed := sealed_small hfits
    obtain ⟨hwhole, hcut⟩ := (writer order).decode_take_wire (hsealed.writer order) size
    rw [hsealed]
    refine ⟨hwhole, fun hlt => ?_⟩
    obtain ⟨e, he⟩ := hcut hlt
    obtain ⟨fault, rfl⟩ := invalid_of_decode he
    exact ⟨fault, he⟩

/-- Cutting off a stream of messages, or of attributes, alters no item of it and invents none: what
is left are the records that end before the cut, and behind them at most one fault. An encoded
message or attribute that is cut off gives itself, if no more than padding is missing, and otherwise
an error. -/
theorem Format.items_of_first_bytes (order : ByteOrder) :
    (∀ data size, (Message.writer order).Truncated data size) ∧
    (∀ data size, (Attribute.writer order).Truncated data size) ∧
    (∀ m n b, Message.encode order m = .ok (n, b) → ∀ size,
      (n.header.length.toNat ≤ size → Message.decode order (b.take size) = .ok n) ∧
      (size < n.header.length.toNat →
        ∃ fault, Message.decode order (b.take size) = .error (.malformedMessage fault))) ∧
    ∀ a a' b, Attribute.encode order a = .ok (a', b) → ∀ size,
      (a'.length.toNat ≤ size → Attribute.decode order (b.take size) = .ok a') ∧
      (size < a'.length.toNat →
        ∃ fault, Attribute.decode order (b.take size) = .error (.invalidAttribute fault)) :=
  ⟨(Message.writer order).truncated, (Attribute.writer order).truncated,
    fun _ _ _ h => Message.decode_take_of_encode h,
    fun _ _ _ h => Attribute.decode_take_of_encode h⟩

/-- Two messages back to back, of which the second one loses its last payload byte, and an attribute
that loses its padding and then its value. -/
theorem Format.items_of_first_bytes_of_cut_payload :
    let m := Message.make 0x1a 0 [1]
    let n := m.withLength
    let twice := n.wire .little ++ n.wire .little
    let a := Attribute.ofU8 3 1
    let records := (Message.format .little).records
    records twice = [n, n] ∧ [n, n] <+: records (twice.take 37) ∧
      ¬ [n, n] <+: records (twice.take 36) ∧ [n] <+: records (twice.take 36) ∧
      m.encode .little = .ok (n, n.wire .little) ∧
      (∃ fault, Message.decode .little ((n.wire .little).take 16) =
        .error (.malformedMessage fault)) ∧
      a.encode .little = .ok (a, [5, 0, 3, 0, 1, 0, 0, 0]) ∧
      Attribute.decode .little [5, 0, 3, 0, 1] = .ok a ∧
      ∃ fault, Attribute.decode .little [5, 0, 3, 0] = .error (.invalidAttribute fault) := by
  intro m n twice a records
  obtain ⟨hmessages, -, hmessage, hattribute⟩ := items_of_first_bytes .little
  have hrecords : records twice = [n, n] := by decide +kernel
  have hencode : m.encode .little = .ok (n, n.wire .little) := rfl
  have hencode' : a.encode .little = .ok (a, [5, 0, 3, 0, 1, 0, 0, 0]) := by decide
  obtain ⟨-, hcut⟩ := hmessage m n _ hencode 16
  refine ⟨hrecords, ?_, ?_, ?_, hencode, hcut (by decide), hencode',
    (hattribute a a _ hencode' 5).1 (by decide), (hattribute a a _ hencode' 4).2 (by decide)⟩
  · exact ((hmessages twice 37).kept_iff (show _ = [n] ++ [n] from hrecords)).2 (by decide)
  · exact mt ((hmessages twice 36).kept_iff (show _ = [n] ++ [n] from hrecords)).1 (by decide)
  · exact ((hmessages twice 36).kept_iff (show _ = [] ++ [n, n] from hrecords)).2 (by decide)

end GenericNetlink
