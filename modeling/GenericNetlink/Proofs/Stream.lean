import GenericNetlink.Message.Basic

/-!
Reading a stream whole.

A traversal in `Except` succeeds exactly if all of its steps do (`mapM_eq_ok_iff`), and so reading a
stream whole succeeds exactly if there is no fault among its items (`collect_eq_ok_iff_items`).
Otherwise it fails with the first fault of its steps (`mapM_eq_error_iff`), and so does a fold
(`foldlM_eq_error_iff`).
`Format.collect` reads one record after the other (`collect_of_lt`, `collect_of_le`), and a fault
of a stream is the fault of one of its records (`decode_of_collect_error`). A `Format.Writer` says
how the records of a format are written, and then what was written back to back is read back
(`Writer.collect_wires`). For messages this is `decodeAll_wires`, and whatever cannot be read is a
malformed message (`malformed_of_decodeAll`).
-/

namespace GenericNetlink

/-! ### Traversals -/

section Traversals

variable {α β ε : Type}

/-- A traversal in which no step has an effect is a map. -/
theorem mapM_eq_pure_map {m : Type → Type} [Monad m] [LawfulMonad m] {f : α → m β} {g : α → β}
    {as : List α} (h : ∀ a ∈ as, f a = pure (g a)) : as.mapM f = pure (as.map g) := by
  induction as with
  | nil => simp
  | cons a as ih =>
    obtain ⟨ha, has⟩ := List.forall_mem_cons.1 h
    simp [ha, ih has]

variable {f : α → Except ε β} {as : List α}

/-- A traversal succeeds exactly if each of its steps does, with what the steps give. -/
theorem mapM_eq_ok_iff {bs : List β} : as.mapM f = .ok bs ↔ as.map f = bs.map .ok := by
  induction as generalizing bs with
  | nil => cases bs <;> simp [pure, Except.pure]
  | cons a as ih =>
    rw [List.mapM_cons, List.map_cons]
    cases hf : f a with
    | error e => cases bs <;> simp [bind, Except.bind]
    | ok b =>
      cases bs with
      | nil => cases as.mapM f <;> simp [bind, Except.bind, pure, Except.pure]
      | cons b' bs =>
        rw [List.map_cons, List.cons.injEq, ← ih]
        cases as.mapM f <;> simp [bind, Except.bind, pure, Except.pure]

/-- A traversal fails with the fault of one of its steps. -/
theorem exists_error_of_mapM {e : ε} (h : as.mapM f = .error e) : ∃ a ∈ as, f a = .error e := by
  induction as with
  | nil => simp [pure, Except.pure] at h
  | cons a as ih =>
    rw [List.mapM_cons] at h
    cases hf : f a with
    | error e' =>
      rw [hf] at h
      obtain rfl := Except.error.inj h
      exact ⟨a, List.mem_cons_self, hf⟩
    | ok b =>
      cases hfs : as.mapM f with
      | error e' =>
        rw [hf, hfs] at h
        obtain rfl := Except.error.inj h
        obtain ⟨x, hx, hfx⟩ := ih hfs
        exact ⟨x, List.mem_cons_of_mem a hx, hfx⟩
      | ok bs => simp [hf, hfs, bind, Except.bind, pure, Except.pure] at h

/-- A step that fails makes a traversal fail, with its own fault or with that of another step. -/
theorem exists_error_of_mem {a : α} {e : ε} (ha : a ∈ as) (h : f a = .error e) :
    ∃ a' ∈ as, ∃ e', f a' = .error e' ∧ as.mapM f = .error e' := by
  cases hfs : as.mapM f with
  | ok bs =>
    have hmem : f a ∈ bs.map .ok := mapM_eq_ok_iff.1 hfs ▸ List.mem_map_of_mem ha
    simp [h] at hmem
  | error e' =>
    obtain ⟨a', ha', hf⟩ := exists_error_of_mapM hfs
    exact ⟨a', ha', e', hf, rfl⟩

/-! What follows says which fault a traversal fails with: the first one. -/

variable {γ σ : Type} {fault : α → ε → Prop} {a : α} {e : ε}

/-- Something is given exactly if there is no fault. -/
theorem exists_eq_ok_iff {x : Except ε β} : (∃ b, x = .ok b) ↔ ∀ e, x ≠ .error e := by
  cases x <;> simp

/-- The second of two steps only counts if the first one has no fault. -/
theorem bind_eq_error_iff {x : Except ε β} {f : β → Except ε γ} {p q : ε → Prop}
    (hx : ∀ e, x = .error e ↔ p e) (hf : ∀ b e, f b = .error e ↔ q e) :
    (x >>= f) = .error e ↔ p e ∨ (∀ e', ¬ p e') ∧ q e := by
  simp only [← hx]
  cases x with
  | error e' =>
    constructor
    · intro h
      exact Or.inl (congrArg _ (Except.error.inj h))
    · rintro (h | ⟨hnone, -⟩)
      · exact congrArg _ (Except.error.inj h)
      · exact absurd rfl (hnone e')
  | ok b =>
    rw [← hf b]
    constructor
    · intro h
      exact Or.inr ⟨by simp, h⟩
    · rintro (h | ⟨-, h⟩)
      · cases h
      · exact h

/-- The first fault of a list of which some elements have faults. -/
def FirstOf (fault : α → ε → Prop) (as : List α) (e : ε) : Prop :=
  ∃ before a after, as = before ++ a :: after ∧ (∀ b ∈ before, ∀ e', ¬ fault b e') ∧ fault a e

theorem not_firstOf_nil : ¬ FirstOf fault [] e := by
  rintro ⟨before, a, after, hsplit, -⟩
  simp at hsplit

theorem firstOf_cons_iff :
    FirstOf fault (a :: as) e ↔ fault a e ∨ (∀ e', ¬ fault a e') ∧ FirstOf fault as e := by
  constructor
  · rintro ⟨_ | ⟨b, before⟩, x, after, hsplit, hbefore, hx⟩
    · obtain ⟨rfl, rfl⟩ := List.cons.inj hsplit
      exact Or.inl hx
    · obtain ⟨rfl, rfl⟩ := List.cons.inj hsplit
      obtain ⟨ha, hbefore⟩ := List.forall_mem_cons.1 hbefore
      exact Or.inr ⟨ha, before, x, after, rfl, hbefore, hx⟩
  · rintro (ha | ⟨ha, before, x, after, rfl, hbefore, hx⟩)
    · exact ⟨[], a, as, rfl, by simp, ha⟩
    · exact ⟨a :: before, x, after, rfl, List.forall_mem_cons.2 ⟨ha, hbefore⟩, hx⟩

/-- There is no first fault exactly if there is none at all. -/
theorem forall_not_firstOf_iff :
    (∀ e, ¬ FirstOf fault as e) ↔ ∀ a ∈ as, ∀ e, ¬ fault a e := by
  induction as with
  | nil => exact iff_of_true (fun _ => not_firstOf_nil) (by simp)
  | cons a as ih =>
    simp only [List.forall_mem_cons, ← ih, firstOf_cons_iff, not_or, not_and]
    constructor
    · intro h
      exact ⟨fun e => (h e).1, fun e => (h e).2 fun e' => (h e').1⟩
    · rintro ⟨ha, has⟩ e
      exact ⟨ha e, fun _ => has e⟩

/-- A fold fails with the first fault, if its state has no part in the faults. -/
theorem foldlM_eq_error_iff {step : σ → α → Except ε σ}
    (h : ∀ s a e, step s a = .error e ↔ fault a e) {s : σ} :
    as.foldlM step s = .error e ↔ FirstOf fault as e := by
  induction as generalizing s e with
  | nil => exact iff_of_false (by simp [pure, Except.pure]) not_firstOf_nil
  | cons a as ih =>
    rw [List.foldlM_cons, firstOf_cons_iff]
    exact bind_eq_error_iff (h s a) fun s' e => ih

/-- A traversal fails with the first fault of its steps. -/
theorem mapM_eq_error_iff (h : ∀ a e, f a = .error e ↔ fault a e) :
    as.mapM f = .error e ↔ FirstOf fault as e := by
  induction as generalizing e with
  | nil => exact iff_of_false (by simp [pure, Except.pure]) not_firstOf_nil
  | cons a as ih =>
    rw [List.mapM_cons, firstOf_cons_iff]
    refine bind_eq_error_iff (h a) fun b e => ?_
    rw [← ih]
    cases as.mapM f <;> simp [bind, Except.bind, pure, Except.pure]

end Traversals

/-! ### Records of a stream -/

namespace Format

variable {α : Type} (f : Format α)

/-- Too few bytes for a header are no records at all. -/
theorem collect_of_lt {data : Bytes} (h : data.length < f.headerSize) :
    f.collect data = .ok [] := by
  rw [collect, f.items_of_lt h]; rfl

@[simp] theorem collect_nil : f.collect [] = .ok [] := f.collect_of_lt f.headerSize_pos

/-- Otherwise a record comes first, and then the records behind it. -/
theorem collect_of_le {data : Bytes} (h : f.headerSize ≤ data.length) :
    f.collect data = (f.decode data).bind fun a => (f.collect (f.behind data)).map (a :: ·) := by
  rw [collect, f.items_cons h]
  cases f.decode data with
  | error e => rfl
  | ok a =>
    rw [List.mapM_cons]
    simp only [id_eq, bind, Except.bind, collect]
    cases (f.items (f.behind data)).mapM id <;> rfl

/-- A stream is read whole exactly if there is no fault among its items. -/
theorem collect_eq_ok_iff_items {data : Bytes} {as : List α} :
    f.collect data = .ok as ↔ f.items data = as.map .ok := by
  rw [collect, mapM_eq_ok_iff, List.map_id]

theorem collect_of_decode {data : Bytes} {a : α} (h : f.decode data = .ok a) :
    f.collect data = (f.collect (f.behind data)).map (a :: ·) := by
  have hd := f.decode_eq_ok_iff.1 h
  rw [f.collect_of_le (Nat.le_trans hd.1 hd.2.1), h]; rfl

theorem collect_of_decode_error {data : Bytes} {e : Error} (hh : f.headerSize ≤ data.length)
    (h : f.decode data = .error e) : f.collect data = .error e := by
  rw [f.collect_of_le hh, h]; rfl

/-- Induction over a stream: too few bytes for a header, a fault at the front, or a record at the
front and what is behind it. -/
@[elab_as_elim]
theorem stream_ind {motive : Bytes → Prop}
    (short : ∀ data, data.length < f.headerSize → motive data)
    (fault : ∀ data e, f.headerSize ≤ data.length → f.decode data = .error e → motive data)
    (record : ∀ data a, f.decode data = .ok a → motive (f.behind data) → motive data)
    (data : Bytes) : motive data := by
  induction hn : data.length using Nat.strongRecOn generalizing data with
  | _ n ih =>
    rcases Nat.lt_or_ge data.length f.headerSize with hlt | hge
    · exact short data hlt
    · cases hd : f.decode data with
      | error e => exact fault data e hge hd
      | ok a => exact record data a hd (ih _ (hn ▸ f.length_behind_lt hd) _ rfl)

/-- Reading one record fails for one of the two reasons that a format knows. -/
theorem eq_of_decode_error {data : Bytes} {e : Error} (h : f.decode data = .error e) :
    e = f.shortHeader data.length ∨ ∃ declared, e = f.badLength declared data.length := by
  by_cases hh : f.headerSize ≤ data.length
  · simp only [decode, f.header_of_le hh, bind, Except.bind, Bytes.hasAtLeast_iff] at h
    split at h
    · simp [pure, Except.pure] at h
    · exact Or.inr ⟨_, (Except.error.inj h).symm⟩
  · simp only [decode, f.header_of_lt (Nat.lt_of_not_le hh), bind, Except.bind] at h
    exact Or.inl (Except.error.inj h).symm

/-- The fault of a stream is the fault of some record in it. -/
theorem decode_of_collect_error {data : Bytes} {e : Error} (h : f.collect data = .error e) :
    ∃ rest, f.decode rest = .error e := by
  induction data using f.stream_ind with
  | short data hlt => simp [f.collect_of_lt hlt] at h
  | fault data e' hge hd =>
    obtain rfl : e' = e := Except.error.inj ((f.collect_of_decode_error hge hd).symm.trans h)
    exact ⟨data, hd⟩
  | record data a hd ih =>
    rw [f.collect_of_decode hd] at h
    cases hb : f.collect (f.behind data) with
    | error e' =>
      rw [hb] at h
      obtain rfl : e' = e := Except.error.inj h
      exact ih hb
    | ok as => rw [hb] at h; exact absurd h (by simp [Except.map])

/-! ### Records as bytes -/

/-- A header of the right size and the body that it declares. -/
structure Frames (header body : Bytes) : Prop where
  size : header.length = f.headerSize
  declares : f.declared header = f.headerSize + body.length

/-- A header and its body are read as their record, whatever is behind them, and of that as much
is skipped as fills up a word. -/
theorem decode_of_frames {header body : Bytes} (h : f.Frames header body) (rest : Bytes) :
    f.decode (header ++ (body ++ rest)) = .ok (f.build header body) ∧
      f.behind (header ++ (body ++ rest)) =
        rest.drop (wordAlign (f.declared header) - f.declared header) := by
  have hhead : (header ++ (body ++ rest)).take f.headerSize = header := List.take_left' h.size
  have hbody : ((header ++ (body ++ rest)).take (f.declared header)).drop f.headerSize = body := by
    rw [List.drop_take, List.drop_left' h.size, h.declares, Nat.add_sub_cancel_left,
      List.take_left' rfl]
  have hsize := h.size
  have hdeclares := h.declares
  constructor
  · rw [f.decode_eq_ok_iff, hhead, hbody]
    refine ⟨by omega, ?_, rfl⟩
    simp only [List.length_append]
    omega
  · have hle := le_wordAlign (f.declared header)
    rw [behind, hhead, ← List.append_assoc, List.drop_append, List.drop_of_length_le,
      List.nil_append, List.length_append, h.size, ← h.declares]
    rw [List.length_append]
    omega

/-- How the records of a format are written: as a header and a body that it builds the record of
again, and that are those a record was built of. -/
structure Writer where
  header : α → Bytes
  body : α → Bytes
  length_header (a : α) : (header a).length = f.headerSize
  build_eq (a : α) : f.build (header a) (body a) = a
  header_build {h : Bytes} (b : Bytes) : h.length = f.headerSize → header (f.build h b) = h
  body_build (h b : Bytes) : body (f.build h b) = b

namespace Writer

variable {f} (w : f.Writer)

/-- Header, body and padding. -/
def wire (a : α) : Bytes := (w.header a ++ w.body a).padded

/-- The header of a record declares the length of header and body. -/
def Sealed (a : α) : Prop := f.declared (w.header a) = f.headerSize + (w.body a).length

variable {w} {a : α}

theorem Sealed.frames (h : w.Sealed a) : f.Frames (w.header a) (w.body a) :=
  ⟨w.length_header a, h⟩

/-- A record that was written is read back, whatever comes after it. -/
theorem decode_wire_append (h : w.Sealed a) (rest : Bytes) :
    f.decode (w.wire a ++ rest) = .ok a ∧ f.behind (w.wire a ++ rest) = rest := by
  have hlen : (w.header a ++ w.body a).length = f.declared (w.header a) := by
    rw [List.length_append, w.length_header, h]
  obtain ⟨hdecode, hbehind⟩ := f.decode_of_frames h.frames
    (Bytes.zeros (wordAlign (f.declared (w.header a)) - f.declared (w.header a)) ++ rest)
  rw [w.build_eq] at hdecode
  rw [List.drop_left' (Bytes.length_zeros _)] at hbehind
  rw [wire, Bytes.padded, hlen, List.append_assoc, List.append_assoc]
  exact ⟨hdecode, hbehind⟩

theorem collect_wire_append (h : w.Sealed a) (rest : Bytes) :
    f.collect (w.wire a ++ rest) = (f.collect rest).map (a :: ·) := by
  obtain ⟨hdecode, hbehind⟩ := decode_wire_append h rest
  rw [f.collect_of_decode hdecode, hbehind]

/-- Records that were written back to back are read back. -/
theorem collect_wires : ∀ {as : List α}, (∀ a ∈ as, w.Sealed a) →
    f.collect (as.flatMap w.wire) = .ok as
  | [], _ => f.collect_nil
  | a :: as, h => by
    have ih := collect_wires fun x hx => h x (List.mem_cons_of_mem a hx)
    rw [List.flatMap_cons, collect_wire_append (h a List.mem_cons_self), ih]; rfl

/-- Records written back to back end at a word boundary. -/
theorem length_wires_mod (w : f.Writer) (as : List α) : (as.flatMap w.wire).length % 4 = 0 := by
  induction as with
  | nil => rfl
  | cons a as ih =>
    have := wordAlign_mod (w.header a ++ w.body a).length
    rw [List.flatMap_cons, List.length_append, wire, Bytes.length_padded]
    omega

end Writer

end Format

namespace Message

/-- What cannot be read as a message is malformed. -/
theorem malformed_of_decode {order : ByteOrder} {data : Bytes} {e : Error}
    (h : decode order data = .error e) : ∃ fault, e = .malformedMessage fault := by
  rcases (format order).eq_of_decode_error h with rfl | ⟨declared, rfl⟩
  · exact ⟨_, rfl⟩
  · exact ⟨_, rfl⟩

/-- So is what cannot be read as messages. -/
theorem malformed_of_decodeAll {order : ByteOrder} {data : Bytes} {e : Error}
    (h : decodeAll order data = .error e) : ∃ fault, e = .malformedMessage fault := by
  obtain ⟨rest, hr⟩ := (format order).decode_of_collect_error h
  exact malformed_of_decode hr

/-- The length in the header is that of header and payload. -/
def Sealed (m : Message) : Prop := m.header.length.toNat = m.size

instance (m : Message) : Decidable m.Sealed := inferInstanceAs (Decidable (_ = _))

/-- The message of the given fields and payload, as it is on the wire. -/
def ofParts (type flags : UInt16) (sequence portId : UInt32) (payload : Bytes) : Message :=
  let length := UInt32.ofNat (Header.size + payload.length)
  { header := { length, type, flags, sequence, portId }, payload }

/-- How messages are written. -/
def writer (order : ByteOrder) : (format order).Writer where
  header m := m.header.bytes order
  body := payload
  length_header m := m.header.length_bytes order
  build_eq m := by simp only [format, Header.ofBytes_bytes]
  header_build _ h := Header.bytes_ofBytes order h
  body_build _ _ := rfl

theorem Sealed.writer {m : Message} (h : m.Sealed) (order : ByteOrder) :
    (writer order).Sealed m := by
  have hread : (Header.ofBytes order (m.header.bytes order)).length.toNat =
      m.header.length.toNat := by rw [Header.ofBytes_bytes]
  exact hread.trans h

theorem decodeAll_wire_append (order : ByteOrder) {m : Message} (hm : m.Sealed) (rest : Bytes) :
    decodeAll order (m.wire order ++ rest) = (decodeAll order rest).map (m :: ·) :=
  Format.Writer.collect_wire_append (hm.writer order) rest

/-- Messages that were written back to back are read back. -/
theorem decodeAll_wires (order : ByteOrder) {ms : List Message} (h : ∀ m ∈ ms, m.Sealed) :
    decodeAll order (ms.flatMap (wire order)) = .ok ms :=
  Format.Writer.collect_wires fun m hm => (h m hm).writer order

/-- Messages written back to back end at a word boundary. -/
theorem length_wires_mod (order : ByteOrder) (ms : List Message) :
    (ms.flatMap (wire order)).length % 4 = 0 :=
  (writer order).length_wires_mod ms

end Message

end GenericNetlink
