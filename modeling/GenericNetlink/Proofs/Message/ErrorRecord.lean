import GenericNetlink.Message.ErrorRecord
import GenericNetlink.Proofs.Attribute.Encoding
import GenericNetlink.Proofs.Attribute.Value
import GenericNetlink.Proofs.Items
import GenericNetlink.Proofs.Packing

/-!
What is read off error records.

The text of a record is that of the first attribute of its kind (`ErrorRecord.Told`), and the
attributes begin where the echoed request is taken to end (`ErrorRecord.exists_decode`). Of a record
that was written this is the end of what was echoed, so code, header and text are read back
(`ErrorRecord.decode_written`). Of any other one it is where the echoed header says. That may be
inside of this header, which then is read as attributes: exactly if the request is not capped and
its declared length is at most twelve (`ErrorRecord.text_of_attribute`).
-/

namespace GenericNetlink

namespace Header

variable {order : ByteOrder}

/-- A header is decoded, whatever is behind it. -/
theorem decode_append (order : ByteOrder) (h : Header) (rest : Bytes) :
    decode order (h.bytes order ++ rest) = .ok h := by
  have hroom : (h.bytes order ++ rest).hasAtLeast size := by
    rw [Bytes.hasAtLeast_iff, List.length_append, length_bytes]
    omega
  rw [decode, if_pos hroom, List.take_left' (h.length_bytes order), ofBytes_bytes]

theorem decode_of_lt {data : Bytes} (h : data.length < size) :
    decode order data = .error (.malformedMessage (.shortHeader data.length)) := by
  rw [decode, if_neg]
  rw [Bytes.hasAtLeast_iff]
  omega

end Header

namespace Attribute

/-- The attributes of a stream have the right lengths. -/
theorem sealed_of_mem_records {order : ByteOrder} {data : Bytes} {a : Attribute}
    (h : a ∈ (format order).records data) : a.Sealed := by
  obtain ⟨item, hitem, hok⟩ := List.mem_filterMap.1 h
  cases item with
  | error e => simp [Except.toOption] at hok
  | ok b =>
    obtain rfl := Option.some.inj hok
    obtain ⟨header, body, hframes, rfl, -⟩ := Format.exists_frames_of_mem hitem
    exact hframes.declares

end Attribute

namespace ErrorRecord

variable {order : ByteOrder} {flags : UInt16} {payload : Bytes} {r : ErrorRecord} {s : String}
  {as : List Attribute}

/-! ### Explanations -/

/-- The text that attributes explain an error with: that of the first one of its kind, if this holds
a text. The others of the kind say nothing. -/
def Told (as : List Attribute) (s : String) : Prop :=
  ∃ before a after, as = before ++ a :: after ∧ (∀ b ∈ before, b.kind ≠ textKind) ∧
    a.kind = textKind ∧ Value.Holds a.value s

theorem told_iff :
    Told as s ↔ ∃ a, as.find? (·.kind = textKind) = some a ∧ Value.text a.value = .ok s := by
  constructor
  · rintro ⟨before, a, after, hsplit, hbefore, hkind, hholds⟩
    refine ⟨a, ?_, Value.text_eq_ok_iff.2 hholds⟩
    rw [List.find?_eq_some_iff_append]
    exact ⟨by simpa using hkind, before, after, hsplit, by simpa using hbefore⟩
  · rintro ⟨a, hfind, htext⟩
    obtain ⟨hkind, before, after, hsplit, hbefore⟩ := List.find?_eq_some_iff_append.1 hfind
    exact ⟨before, a, after, hsplit, by simpa using hbefore, by simpa using hkind,
      Value.text_eq_ok_iff.1 htext⟩

/-- The lengths of attributes have no part in what is told. -/
theorem told_map_withLength : Told (as.map Attribute.withLength) s ↔ Told as s := by
  have hfind : (as.map Attribute.withLength).find? (·.kind = textKind) =
      (as.find? (·.kind = textKind)).map Attribute.withLength := by
    rw [List.find?_map]
    rfl
  rw [told_iff, told_iff, hfind]
  constructor
  · rintro ⟨b, hb, htext⟩
    obtain ⟨a, ha, rfl⟩ := Option.map_eq_some_iff.1 hb
    exact ⟨a, ha, htext⟩
  · rintro ⟨a, ha, htext⟩
    exact ⟨_, Option.map_eq_some_iff.2 ⟨a, ha, rfl⟩, htext⟩

theorem explanation_cons_error (e : Error) (items : List (Except Error Attribute)) :
    explanation (.error e :: items) = explanation items := rfl

theorem explanation_cons_of_ne {a : Attribute} (h : a.kind ≠ textKind)
    (items : List (Except Error Attribute)) :
    explanation (.ok a :: items) = explanation items := by
  simp [explanation, h]

theorem explanation_cons_of_eq {a : Attribute} (h : a.kind = textKind)
    (items : List (Except Error Attribute)) :
    explanation (.ok a :: items) = (Value.text a.value).toOption := by
  simp [explanation, h]

/-- Faults have no part in it either: of a stream the attributes in front of its fault count. -/
theorem explanation_eq_some_iff {items : List (Except Error Attribute)} :
    explanation items = some s ↔ Told (items.filterMap Except.toOption) s := by
  induction items with
  | nil => simp [explanation, told_iff]
  | cons item items ih =>
    cases item with
    | error e =>
      rw [explanation_cons_error, ih]
      rfl
    | ok a =>
      have hrecords : (Except.ok a :: items).filterMap Except.toOption =
          a :: items.filterMap Except.toOption := rfl
      rw [told_iff, hrecords]
      by_cases hkind : a.kind = textKind
      · rw [explanation_cons_of_eq hkind, List.find?_cons_of_pos (by simpa using hkind)]
        cases htext : Value.text a.value <;> simp [Except.toOption, htext]
      · rw [explanation_cons_of_ne hkind, List.find?_cons_of_neg (by simpa using hkind), ih,
          told_iff]

/-- An attribute of the kind that comes first has the say, whatever is behind it. -/
theorem told_records_of_decode {data : Bytes} {a : Attribute}
    (h : Attribute.decode order data = .ok a) (hkind : a.kind = textKind)
    (hholds : Value.Holds a.value s) : Told ((Attribute.format order).records data) s :=
  ⟨[], a, _, Format.records_of_decode h, by simp, hkind, hholds⟩

/-! ### Records that are long enough for a header -/

/-- Where the attributes of a record are taken to begin in its payload. -/
def attributesAt (flags : UInt16) (request : Header) : Nat := 4 + echoSize flags request

theorem echoSize_of_capped (h : flags &&& MessageFlag.capped ≠ 0) (request : Header) :
    echoSize flags request = Header.size := by
  rw [echoSize, if_pos (by simpa using h)]

theorem echoSize_of_not_capped (h : flags &&& MessageFlag.capped = 0) (request : Header) :
    echoSize flags request = wordAlign request.length.toNat := by
  rw [echoSize, if_neg (by simpa using h)]

/-- The attributes begin behind the header exactly if only a header is echoed, or the length that
the header declares is more than twelve. -/
theorem size_le_echoSize_iff {request : Header} :
    Header.size ≤ echoSize flags request ↔
      flags &&& MessageFlag.capped ≠ 0 ∨ 12 < request.length.toNat := by
  by_cases hcapped : flags &&& MessageFlag.capped = 0
  · rw [echoSize_of_not_capped hcapped, wordAlign, Header.size]
    constructor
    · intro h
      exact Or.inr (by omega)
    · rintro (h | h)
      · exact absurd hcapped h
      · omega
  · rw [echoSize_of_capped hcapped]
    exact iff_of_true (Nat.le_refl _) (Or.inl hcapped)

/-- What is read off a code and a header with bytes behind them. -/
theorem exists_decode (order : ByteOrder) (flags : UInt16) (code : Int32) (request : Header)
    (rest : Bytes) :
    ∃ r, decode flags order (order.bytesOfI32 code ++ (request.bytes order ++ rest)) = .ok r ∧
      r.code = code ∧ r.request = some request ∧
      ∀ s, r.text = some s ↔ flags &&& MessageFlag.ackAttributes ≠ 0 ∧
        Told ((Attribute.format order).records
          ((request.bytes order ++ rest).drop (echoSize flags request))) s := by
  have hlen := order.length_bytesOfI32 code
  have hroom : (order.bytesOfI32 code ++ (request.bytes order ++ rest)).hasAtLeast 4 := by
    rw [Bytes.hasAtLeast_iff, List.length_append]
    omega
  rw [decode, if_pos hroom, List.take_left' hlen, List.drop_left' hlen]
  dsimp only
  rw [Header.decode_append]
  refine ⟨_, rfl, order.i32OfBytes_bytesOfI32 code, rfl, fun s => ?_⟩
  by_cases hack : flags &&& MessageFlag.ackAttributes = 0
  · simp [Except.toOption, hack]
  · simp only [Except.toOption, Option.bind_eq_bind, Option.bind_some, bne_iff_ne, ne_eq, hack,
      not_false_iff, if_true, true_and]
    exact explanation_eq_some_iff

/-- Without a header there is no text. -/
theorem text_of_lt (h : payload.length < 4 + Header.size)
    (hr : decode flags order payload = .ok r) : r.text = none := by
  rw [decode] at hr
  split at hr
  · next hroom =>
    have hcode : 4 ≤ payload.length := Bytes.hasAtLeast_iff.1 hroom
    have hshort : (payload.drop 4).length < Header.size := by
      rw [List.length_drop]
      omega
    dsimp only at hr
    rw [Header.decode_of_lt hshort] at hr
    obtain rfl := Except.ok.inj hr
    rfl
  · exact absurd hr (by simp)

/-- A payload that is long enough begins with a code and a header. -/
theorem exists_parts (order : ByteOrder) (h : 4 + Header.size ≤ payload.length) :
    ∃ code request rest,
      payload = order.bytesOfI32 code ++ (Header.bytes order request ++ rest) := by
  have hcode : (payload.take 4).length = 4 := List.length_take_of_le (by omega)
  have hrequest : ((payload.drop 4).take Header.size).length = Header.size := by
    refine List.length_take_of_le ?_
    rw [List.length_drop]
    omega
  refine ⟨order.i32OfBytes (payload.take 4),
    Header.ofBytes order ((payload.drop 4).take Header.size), (payload.drop 4).drop Header.size, ?_⟩
  rw [Header.bytes_ofBytes order hrequest, List.take_append_drop, ByteOrder.bytesOfI32,
    ByteOrder.i32OfBytes, UInt32.toUInt32_toInt32, order.bytesOfU32_u32OfBytes hcode,
    List.take_append_drop]

/-! ### Records as they are written -/

/-- What is echoed of a request that was written: all of it, or its header alone. -/
def echo (flags : UInt16) (request : Bytes) : Bytes :=
  if flags &&& MessageFlag.capped = 0 then request else request.take Header.size

/-- The echo of a request is its header and something behind it, and its size is the one that it is
taken for. -/
theorem echo_eq (flags : UInt16) {m sent : Message} {request : Bytes}
    (h : m.encode order = .ok (sent, request)) :
    ∃ rest, echo flags request = sent.header.bytes order ++ rest ∧
      (echo flags request).length = echoSize flags sent.header := by
  obtain ⟨hfits, rfl, rfl⟩ := Message.encode_eq_ok_iff.1 h
  have hwire : m.withLength.wire order = m.withLength.header.bytes order ++
      (m.withLength.payload ++ Bytes.zeros (wordAlign m.withLength.size - m.withLength.size)) := by
    rw [Message.wire, Bytes.padded, List.append_assoc, List.length_append, Header.length_bytes,
      Message.size]
  by_cases hcapped : flags &&& MessageFlag.capped = 0
  · have hsealed : m.withLength.header.length.toNat = m.withLength.size :=
      Message.sealed_withLength hfits
    refine ⟨_, (if_pos hcapped).trans hwire, ?_⟩
    rw [echo, if_pos hcapped, echoSize_of_not_capped hcapped, Message.length_wire,
      Message.wireSize, hsealed]
  · have hheader : echo flags (m.withLength.wire order) = m.withLength.header.bytes order := by
      rw [echo, if_neg hcapped, hwire, List.take_left' (Header.length_bytes ..)]
    refine ⟨[], hheader.trans (List.append_nil _).symm, ?_⟩
    rw [hheader, Header.length_bytes, echoSize_of_capped hcapped]

theorem toError_of_none (h : r.text = none) :
    r.toError = .kernel ⟨-r.code⟩ (Errno.describe ⟨-r.code⟩) := by
  rw [toError, h]
  rfl

theorem toError_of_some (h : r.text = some s) :
    r.toError = .kernel ⟨-r.code⟩ (s ++ ": " ++ Errno.describe ⟨-r.code⟩) := by
  rw [toError, h]
  rfl

theorem isAck_toError : r.toError.isAck = true ↔ r.code = 0 := by
  have herrno : r.toError.errno = some ⟨-r.code⟩ := by
    cases h : r.text with
    | none => rw [toError_of_none h]; rfl
    | some s => rw [toError_of_some h]; rfl
  rw [Error.isAck, herrno, decide_eq_true_iff, Option.some.injEq, Errno.success, Errno.mk.injEq]
  exact Int32.neg_inj (b := 0)

/-- A record that the kernel writes is read back: a code, the echo of a request, whole or capped,
and attributes. The text is that of the first attribute of its kind, if the flags announce
attributes; otherwise there is none. The error that it reports has the number with its sign changed,
and the system's text for it, behind that of the record if there is one. -/
theorem decode_written (flags : UInt16) (code : Int32) {m sent : Message}
    {request attributes : Bytes} {written : List Attribute} (hm : m.encode order = .ok (sent, request))
    (has : Attribute.encodeAll order as = (written, .ok attributes)) :
    ∃ r, decode flags order (order.bytesOfI32 code ++ (echo flags request ++ attributes)) = .ok r ∧
      r.code = code ∧ r.request = some { m.header with length := UInt32.ofNat m.size } ∧
      (∀ s, r.text = some s ↔ flags &&& MessageFlag.ackAttributes ≠ 0 ∧ Told as s) ∧
      (r.isAck = true ↔ code = 0) ∧ (r.toError.isAck = true ↔ code = 0) ∧
      (r.text = none → r.toError = .kernel ⟨-code⟩ (Errno.describe ⟨-code⟩)) ∧
      ∀ s, r.text = some s → r.toError = .kernel ⟨-code⟩ (s ++ ": " ++ Errno.describe ⟨-code⟩) := by
  obtain ⟨rest, hecho, hsize⟩ := echo_eq flags hm
  obtain ⟨-, hsent, -⟩ := Message.encode_eq_ok_iff.1 hm
  obtain ⟨hfits, hwritten, rfl⟩ := Attribute.encodeAll_eq_ok_iff.1 has
  obtain ⟨r, hr, rfl, hrequest, htext⟩ :=
    exists_decode order flags code sent.header (rest ++ written.flatMap (Attribute.wire order))
  have hbehind : (sent.header.bytes order ++ (rest ++ written.flatMap (Attribute.wire order))).drop
      (echoSize flags sent.header) = written.flatMap (Attribute.wire order) := by
    rw [← List.append_assoc, ← hecho, List.drop_left' hsize]
  have hsealed : ∀ a ∈ written, a.Sealed := hwritten ▸ (Attribute.map_withLength hfits).2
  have hrecords : (Attribute.format order).records (written.flatMap (Attribute.wire order)) =
      written :=
    Format.records_of_collect
      ((Attribute.format order).collect_eq_ok_iff_items.2 (Attribute.items_wires hsealed))
  refine ⟨r, ?_, rfl, ?_, fun s => ?_, beq_iff_eq, isAck_toError, toError_of_none,
    fun s => toError_of_some⟩
  · rw [hecho, List.append_assoc, hr]
  · rw [hrequest, hsent]
    rfl
  · rw [htext, hbehind, hrecords, hwritten, told_map_withLength]

/-- A record with the whole of a request in it, which takes padding, and three attributes: one of
another kind, one with a text and a byte behind it, and one of the same kind that holds none. -/
theorem decode_written_of_whole_echo :
    let m := Message.make 0x10 MessageFlag.request [3, 1, 0, 0, 9]
    let as : List Attribute :=
      [{ type := offsetKind, value := [8, 0, 0, 0] },
        { length := 99, type := textKind, value := [98, 97, 100, 0, 7] },
        { type := textKind, value := [255] }]
    let request : Bytes :=
      [0, 0, 0, 21, 0, 16, 0, 1, 0, 0, 0, 0, 0, 0, 0, 0, 3, 1, 0, 0, 9, 0, 0, 0]
    let attributes : Bytes :=
      [0, 8, 0, 2, 8, 0, 0, 0, 0, 9, 0, 1, 98, 97, 100, 0, 7, 0, 0, 0, 0, 5, 0, 1, 255, 0, 0, 0]
    m.encode .big = .ok ({ m with header := { m.header with length := 21 } }, request) ∧
      (Attribute.encodeAll .big as).2 = .ok attributes ∧
      ∃ r, decode MessageFlag.ackAttributes .big
          ([255, 255, 255, 234] ++ (request ++ attributes)) = .ok r ∧
        r.code = -22 ∧ r.request = some { m.header with length := 21 } ∧ r.text = some "bad" ∧
        r.toError = .kernel ⟨22⟩ "bad: Invalid argument (os error 22)" := by
  intro m as request attributes
  have hm : m.encode .big = .ok ({ m with header := { m.header with length := 21 } }, request) := by
    decide
  have has : Attribute.encodeAll .big as = ((Attribute.encodeAll .big as).1, .ok attributes) := by
    decide
  have htold : Told as "bad" :=
    ⟨[_], _, [_], rfl, by decide, by decide, @Value.Holds.ended "bad" [7] (by decide)⟩
  obtain ⟨r, hr, hcode, hrequest, htext, -, -, -, herror⟩ :=
    decode_written MessageFlag.ackAttributes (-22) hm has
  have hbad : r.text = some "bad" := (htext "bad").2 ⟨by decide, htold⟩
  exact ⟨hm, congrArg Prod.snd has, r, hr, hcode, hrequest, hbad, herror "bad" hbad⟩

/-! ### Where a text comes from -/

/-- An attribute that stands in a payload, with its header and its whole value, and explains an
error. -/
structure Explains (order : ByteOrder) (payload : Bytes) (offset : Nat) (a : Attribute)
    (s : String) : Prop where
  sealed : a.Sealed
  kind : a.kind = textKind
  holds : Value.Holds a.value s
  stands : a.header order ++ a.value <+: payload.drop offset

theorem Explains.le_length {offset : Nat} {a : Attribute} (h : Explains order payload offset a s) :
    offset + 4 ≤ payload.length := by
  have hle := h.stands.length_le
  rw [List.length_append, Attribute.length_header, Attribute.headerSize, List.length_drop] at hle
  omega

/-- A text is that of the first attribute of its kind among those behind the echoed request, and the
flags announce them. It stands in the payload as a whole, behind the code. Whether it is behind the
header too depends on where the attributes are taken to begin: they begin behind the header exactly
if only a header is echoed, or the length that the header declares is more than twelve. -/
theorem text_of_attribute (hr : decode flags order payload = .ok r) (hs : r.text = some s) :
    flags &&& MessageFlag.ackAttributes ≠ 0 ∧ ∃ request, r.request = some request ∧
      ∃ before a after, (Attribute.format order).records
          (payload.drop (attributesAt flags request)) = before ++ a :: after ∧
        (∀ b ∈ before, b.kind ≠ textKind) ∧
        Explains order payload
          (attributesAt flags request + (before.flatMap (Attribute.wire order)).length) a s ∧
        (4 + Header.size ≤ attributesAt flags request ↔
          flags &&& MessageFlag.capped ≠ 0 ∨ 12 < request.length.toNat) := by
  rcases Nat.lt_or_ge payload.length (4 + Header.size) with hshort | hlong
  · rw [text_of_lt hshort hr] at hs
    exact absurd hs (by simp)
  obtain ⟨code, request, rest, rfl⟩ := exists_parts order hlong
  obtain ⟨r', hr', -, hrequest, htext⟩ := exists_decode order flags code request rest
  obtain rfl : r = r' := Except.ok.inj (hr.symm.trans hr')
  obtain ⟨hack, before, a, after, hsplit, hbefore, hkind, hholds⟩ := (htext s).1 hs
  -- the reader counts from the echoed header on, `attributesAt` from the code on
  have hbehind : (order.bytesOfI32 code ++ (request.bytes order ++ rest)).drop
      (attributesAt flags request) =
      (request.bytes order ++ rest).drop (echoSize flags request) := by
    rw [attributesAt, ← List.drop_drop, List.drop_left' (order.length_bytesOfI32 code)]
  have hmem : a ∈ (Attribute.format order).records
      ((request.bytes order ++ rest).drop (echoSize flags request)) := by
    rw [hsplit]
    simp
  have hstands := (Attribute.writer order).content_prefix_drop hsplit
  rw [← hbehind, List.drop_drop] at hstands
  refine ⟨hack, request, hrequest, before, a, after, ?_, hbefore, ?_, ?_⟩
  · rw [hbehind, hsplit]
  · exact ⟨Attribute.sealed_of_mem_records hmem, hkind, hholds, hstands⟩
  · rw [attributesAt, Nat.add_le_add_iff_left, size_le_echoSize_iff]

/-- The header that declares a length of four, and a text that is behind it in a capped record. -/
theorem text_of_attribute_of_capped :
    let flags := MessageFlag.capped ||| MessageFlag.ackAttributes
    let payload : Bytes :=
      [234, 255, 255, 255, 4, 0, 0, 0, 8, 0, 1, 0, 104, 105, 0, 0, 0, 0, 0, 0,
        7, 0, 1, 0, 111, 107, 0]
    ∃ r, decode flags .little payload = .ok r ∧ r.text = some "ok" ∧
      ∃ a offset, 4 + Header.size ≤ offset ∧ Explains .little payload offset a "ok" := by
  intro flags payload
  let request : Header := { length := 4, type := 8, flags := 1, sequence := 0x6968 }
  obtain ⟨r, hr, -, -, htext⟩ :=
    exists_decode .little flags (-22) request [7, 0, 1, 0, 111, 107, 0]
  have hok : r.text = some "ok" :=
    (htext "ok").2 ⟨by decide, told_records_of_decode
      (a := { length := 7, type := textKind, value := [111, 107, 0] }) (by decide) (by decide)
      (@Value.Holds.ended "ok" [] (by decide))⟩
  have hbytes : ByteOrder.little.bytesOfI32 (-22) ++
      (request.bytes .little ++ [7, 0, 1, 0, 111, 107, 0]) = payload := by decide
  rw [hbytes] at hr
  obtain ⟨-, _, -, _, a, _, -, -, hexplains, hbegin⟩ := text_of_attribute hr hok
  have hbehind := hbegin.2 (Or.inl (by decide))
  exact ⟨r, hr, hok, a, _, Nat.le_trans hbehind (Nat.le_add_right ..), hexplains⟩

/-- The same header in a record that is not capped is an explanation itself: nothing is behind it,
and there is a text. -/
theorem echoed_header_gives_text :
    let payload : Bytes :=
      [234, 255, 255, 255, 4, 0, 0, 0, 8, 0, 1, 0, 104, 105, 0, 0, 0, 0, 0, 0]
    ∃ r, decode MessageFlag.ackAttributes .little payload = .ok r ∧ r.text = some "hi" ∧
      ¬ ∃ a offset, 4 + Header.size ≤ offset ∧ Explains .little payload offset a "hi" := by
  intro payload
  let request : Header := { length := 4, type := 8, flags := 1, sequence := 0x6968 }
  obtain ⟨r, hr, -, -, htext⟩ := exists_decode .little MessageFlag.ackAttributes (-22) request []
  have hhi : r.text = some "hi" :=
    (htext "hi").2 ⟨by decide, told_records_of_decode
      (a := { length := 8, type := textKind, value := [104, 105, 0, 0] }) (by decide) (by decide)
      (@Value.Holds.ended "hi" [0] (by decide))⟩
  have hbytes : ByteOrder.little.bytesOfI32 (-22) ++ (request.bytes .little ++ []) = payload := by
    decide
  rw [hbytes] at hr
  refine ⟨r, hr, hhi, ?_⟩
  rintro ⟨a, offset, hbehind, hexplains⟩
  have hend : payload.length = 4 + Header.size := rfl
  have := hexplains.le_length
  omega

end ErrorRecord

end GenericNetlink
