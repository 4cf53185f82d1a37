import GenericNetlink.Align
import GenericNetlink.Error

/-!
Streams of length-prefixed records.

Messages and attributes are framed alike: a fixed header, whose length field counts header and
body together, then the body, then zeros up to a four-byte boundary. A `Format` says what differs,
and reading one record (`decode`), stepping through a buffer (`next?`) and reading it whole
(`items`, `collect`) are defined once over it. `items_of_lt` and `items_cons` are the two
equations of a stream.
-/

namespace GenericNetlink

/-- What tells one kind of record from another: the size of the header, the length that a header
declares (its own included), the record of a header and a body, and the errors for a buffer too
short for a header and for a declared length that a buffer cannot have. The errors are given the
size of the buffer, the second one behind the declared length. -/
structure Format (α : Type) where
  headerSize : Nat
  headerSize_pos : 0 < headerSize
  declared : Bytes → Nat
  build : Bytes → Bytes → α
  shortHeader : Nat → Error
  badLength : Nat → Nat → Error

namespace Format

variable {α : Type} (f : Format α)

/-- The first bytes of a buffer, one header long. -/
def header (data : Bytes) : Except Error Bytes :=
  if data.hasAtLeast f.headerSize then .ok (data.take f.headerSize)
  else .error (f.shortHeader data.length)

/-- The record at the front of a buffer; what lies behind it is ignored. -/
def decode (data : Bytes) : Except Error α := do
  let header ← f.header data
  let size := f.declared header
  if f.headerSize ≤ size ∧ data.hasAtLeast size then
    return f.build header ((data.take size).drop f.headerSize)
  else
    throw (f.badLength size data.length)

/-- Whether a stream has come to its end: what is left cannot hold a header. -/
def isEmpty (data : Bytes) : Bool := !data.hasAtLeast f.headerSize

/-- What the first record of a stream leaves behind it, padding skipped. -/
def behind (data : Bytes) : Bytes :=
  data.drop (wordAlign (f.declared (data.take f.headerSize)))

/-- The first item of a stream and what is left of it; nothing is left behind a fault. -/
def next? (data : Bytes) : Option (Except Error α × Bytes) :=
  if f.isEmpty data then none
  else match f.decode data with
    | .error e => some (.error e, [])
    | .ok a => some (.ok a, f.behind data)

theorem isEmpty_iff {data : Bytes} : f.isEmpty data = true ↔ data.length < f.headerSize := by
  simp [isEmpty]

theorem isEmpty_eq_false_iff {data : Bytes} :
    f.isEmpty data = false ↔ f.headerSize ≤ data.length := by
  simp [isEmpty]

theorem header_of_le {data : Bytes} (h : f.headerSize ≤ data.length) :
    f.header data = .ok (data.take f.headerSize) := by
  simp [header, h]

theorem header_of_lt {data : Bytes} (h : data.length < f.headerSize) :
    f.header data = .error (f.shortHeader data.length) := by
  simp [header, Nat.not_le.2 h]

/-- Exactly which buffers begin with a record, and with which. -/
theorem decode_eq_ok_iff {data : Bytes} {a : α} :
    f.decode data = .ok a ↔
      f.headerSize ≤ f.declared (data.take f.headerSize) ∧
      f.declared (data.take f.headerSize) ≤ data.length ∧
      a = f.build (data.take f.headerSize)
        ((data.take (f.declared (data.take f.headerSize))).drop f.headerSize) := by
  by_cases hh : f.headerSize ≤ data.length
  · simp only [decode, header_of_le f hh, bind, Except.bind, Bytes.hasAtLeast_iff]
    split
    · next h => simp [pure, Except.pure, h, eq_comm]
    · next h =>
      simp only [throw, throwThe, MonadExceptOf.throw, reduceCtorEq, false_iff]
      exact fun h' => h ⟨h'.1, h'.2.1⟩
  · simp only [decode, header_of_lt f (Nat.lt_of_not_le hh), bind, Except.bind, reduceCtorEq,
      false_iff]
    omega

/-- A record with its padding takes at least a byte, so a stream gets shorter. -/
theorem length_behind_lt {data : Bytes} {a : α} (h : f.decode data = .ok a) :
    (f.behind data).length < data.length := by
  have hd := f.decode_eq_ok_iff.1 h
  have hpos := f.headerSize_pos
  have := le_wordAlign (f.declared (data.take f.headerSize))
  simp only [behind, List.length_drop]
  omega

theorem length_lt_of_next? {data rest : Bytes} {item : Except Error α}
    (h : f.next? data = some (item, rest)) : rest.length < data.length := by
  unfold next? at h
  split at h
  · exact absurd h (by simp)
  next hne =>
    have hpos := f.headerSize_pos
    have hle := f.isEmpty_eq_false_iff.1 (Bool.not_eq_true _ ▸ hne)
    split at h
    · simp only [Option.some.injEq, Prod.mk.injEq] at h
      rw [← h.2]
      simp only [List.length_nil]
      omega
    · next hd =>
      simp only [Option.some.injEq, Prod.mk.injEq] at h
      rw [← h.2]
      exact f.length_behind_lt hd

/-- The items of a stream, latest first, in front of those already read. -/
def itemsOnto (read : List (Except Error α)) (data : Bytes) : List (Except Error α) :=
  match _h : f.next? data with
  | none => read
  | some (item, rest) => itemsOnto (item :: read) rest
termination_by data.length
decreasing_by exact f.length_lt_of_next? (by assumption)

/-- Every item of a stream in order: its records, and a fault where one stops it. -/
def items (data : Bytes) : List (Except Error α) := (f.itemsOnto [] data).reverse

theorem itemsOnto_of_none {read : List (Except Error α)} {data : Bytes}
    (h : f.next? data = none) : f.itemsOnto read data = read := by
  rw [itemsOnto]
  split <;> simp_all

theorem itemsOnto_of_some {read : List (Except Error α)} {data rest : Bytes}
    {item : Except Error α} (h : f.next? data = some (item, rest)) :
    f.itemsOnto read data = f.itemsOnto (item :: read) rest := by
  rw [itemsOnto]
  split <;> simp_all

theorem itemsOnto_append (read read' : List (Except Error α)) (data : Bytes) :
    f.itemsOnto (read ++ read') data = f.itemsOnto read data ++ read' := by
  fun_induction itemsOnto f read data with
  | case1 read data h => rw [f.itemsOnto_of_none h]
  | case2 read data item rest h ih => rw [f.itemsOnto_of_some h, ← List.cons_append, ih]

/-- A stream is its first item and then the stream of what that leaves. -/
theorem items_of_next? {data : Bytes} :
    f.items data = match f.next? data with
      | none => []
      | some (item, rest) => item :: f.items rest := by
  unfold items
  split
  · next h => rw [f.itemsOnto_of_none h, List.reverse_nil]
  · next item rest h =>
    rw [f.itemsOnto_of_some h, show [item] = [] ++ [item] from rfl, itemsOnto_append]
    simp

/-- Too few bytes for a header end a stream. -/
theorem items_of_lt {data : Bytes} (h : data.length < f.headerSize) : f.items data = [] := by
  rw [items_of_next?, next?, if_pos (f.isEmpty_iff.2 h)]

/-- Otherwise a stream is a record and the stream behind it, or a fault alone. -/
theorem items_cons {data : Bytes} (h : f.headerSize ≤ data.length) :
    f.items data = match f.decode data with
      | .error e => [.error e]
      | .ok a => .ok a :: f.items (f.behind data) := by
  rw [items_of_next?, next?, if_neg (by simp [f.isEmpty_eq_false_iff.2 h])]
  cases f.decode data with
  | error e => simp [f.items_of_lt (show ([] : Bytes).length < f.headerSize from f.headerSize_pos)]
  | ok a => rfl

/-- Every record of a stream, or the fault that stops it. -/
def collect (data : Bytes) : Except Error (List α) :=
  (f.items data).mapM id

end Format

end GenericNetlink
