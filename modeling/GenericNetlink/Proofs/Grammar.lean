import GenericNetlink.Proofs.Stream
import Mathlib.Data.List.Basic

/-!
The grammar of a stream, and its canonical form.

A buffer that can be read is one chunk after the other, and then a tail too short for a header
(`Format.Splits`). A chunk is a header, the body whose length the header declares, and bytes up to
a word boundary that say nothing; of these only the last chunk may have too few. Reading accepts
exactly such buffers and gives the records of the chunks (`collect_eq_ok_iff`). What was read is
written back with zeros for padding, all of them, and without the tail
(`Writer.flatMap_wire_records`), so buffers that differ in nothing else give the same records.
-/

namespace GenericNetlink

/-- A record as it stands in a buffer: the header, which declares the length of header and body, the
body, and what is behind it up to the next header or to the end. -/
structure Chunk where
  header : Bytes
  body : Bytes
  padding : Bytes
  deriving DecidableEq

namespace Chunk

/-- All bytes of the chunk. -/
def bytes (c : Chunk) : Bytes := c.header ++ (c.body ++ c.padding)

/-- The size of header and body. -/
def size (c : Chunk) : Nat := c.header.length + c.body.length

/-- How many bytes it takes from the body to a word boundary. -/
def gap (c : Chunk) : Nat := wordAlign c.size - c.size

/-- The chunk with zeros as its padding, all of them. -/
def canonical (c : Chunk) : Bytes := (c.header ++ c.body).padded

/-- Header and body, without the padding. -/
def content (c : Chunk) : Bytes × Bytes := (c.header, c.body)

end Chunk

namespace Format

variable {α : Type} (f : Format α)

/-- The record of a chunk. -/
def record (c : Chunk) : α := f.build c.header c.body

/-- The buffer is the given chunks, one behind the other, and the given tail, which is too short for
a header. Each chunk has padding up to a word boundary, but the last one may have too little, and
then nothing is behind it. -/
inductive Splits : Bytes → List Chunk → Bytes → Prop
  | tail {tail : Bytes} : tail.length < f.headerSize → Splits tail [] tail
  | last {c : Chunk} : f.Frames c.header c.body → c.padding.length < c.gap → Splits c.bytes [c] []
  | cons {c : Chunk} {chunks : List Chunk} {rest tail : Bytes} : f.Frames c.header c.body →
      c.padding.length = c.gap → Splits rest chunks tail →
      Splits (c.bytes ++ rest) (c :: chunks) tail

variable {f}

/-- A chunk is read as its record, and of what is behind its body the padding is skipped. -/
theorem decode_chunk {c : Chunk} (h : f.Frames c.header c.body) (rest : Bytes) :
    f.decode (c.bytes ++ rest) = .ok (f.record c) ∧
      f.behind (c.bytes ++ rest) = (c.padding ++ rest).drop c.gap := by
  have hsize : f.declared c.header = c.size := by rw [h.declares, Chunk.size, h.size]
  have hread := f.decode_of_frames h (c.padding ++ rest)
  rw [hsize] at hread
  rw [Chunk.bytes, List.append_assoc, List.append_assoc]
  exact hread

namespace Splits

variable {data tail : Bytes} {chunks : List Chunk}

theorem bytes_eq (h : f.Splits data chunks tail) : data = chunks.flatMap Chunk.bytes ++ tail := by
  induction h with
  | tail _ => rfl
  | last _ _ => simp
  | cons _ _ _ ih => rw [List.flatMap_cons, List.append_assoc, ← ih]

theorem length_tail_lt (h : f.Splits data chunks tail) : tail.length < f.headerSize := by
  induction h with
  | tail ht => exact ht
  | last _ _ => exact f.headerSize_pos
  | cons _ _ _ ih => exact ih

theorem frames (h : f.Splits data chunks tail) : ∀ c ∈ chunks, f.Frames c.header c.body := by
  induction h with
  | tail _ => simp
  | last hc _ => exact List.forall_mem_singleton.2 hc
  | cons hc _ _ ih => exact List.forall_mem_cons.2 ⟨hc, ih⟩

/-- What splits into chunks is read as their records. -/
theorem collect_eq (h : f.Splits data chunks tail) :
    f.collect data = .ok (chunks.map f.record) := by
  induction h with
  | tail ht => exact f.collect_of_lt ht
  | @last c hc hpad =>
    obtain ⟨hdecode, hbehind⟩ := decode_chunk hc []
    simp only [List.append_nil] at hdecode hbehind
    rw [List.drop_of_length_le (Nat.le_of_lt hpad)] at hbehind
    rw [f.collect_of_decode hdecode, hbehind, f.collect_nil]
    rfl
  | @cons c chunks rest tail hc hpad _ ih =>
    obtain ⟨hdecode, hbehind⟩ := decode_chunk hc rest
    rw [List.drop_left' hpad] at hbehind
    rw [f.collect_of_decode hdecode, hbehind, ih]
    rfl

/-- Buffers of the same headers and bodies are read as the same records. -/
theorem collect_eq_of_content {data' tail' : Bytes} {chunks' : List Chunk}
    (h : f.Splits data chunks tail) (h' : f.Splits data' chunks' tail')
    (hsame : chunks'.map Chunk.content = chunks.map Chunk.content) :
    f.collect data' = f.collect data := by
  have hrecords (cs : List Chunk) :
      cs.map f.record = (cs.map Chunk.content).map fun c => f.build c.1 c.2 := by
    rw [List.map_map]; rfl
  rw [h.collect_eq, h'.collect_eq, hrecords, hrecords, hsame]

end Splits

/-- A buffer that begins with a record begins with its header and its body. -/
theorem exists_frames_of_decode {data : Bytes} {a : α} (h : f.decode data = .ok a) :
    ∃ header body rest, data = header ++ (body ++ rest) ∧ f.Frames header body ∧
      a = f.build header body := by
  obtain ⟨hlow, hhigh, rfl⟩ := f.decode_eq_ok_iff.1 h
  refine ⟨_, _, data.drop (f.declared (data.take f.headerSize)), ?_, ⟨?_, ?_⟩, rfl⟩
  · have hcut := List.take_append_drop f.headerSize
      (data.take (f.declared (data.take f.headerSize)))
    rw [List.take_take, Nat.min_eq_left hlow] at hcut
    rw [← List.append_assoc, hcut, List.take_append_drop]
  · rw [List.length_take]
    omega
  · rw [List.length_drop, List.length_take]
    omega

/-- A header and a body in front of what splits: the padding of their chunk is whatever there is
of it, and if that is too little they are the last. -/
theorem Splits.exists_cons {header body rest tail : Bytes} {chunks : List Chunk}
    (hframes : f.Frames header body)
    (h : f.Splits (rest.drop (wordAlign (f.declared header) - f.declared header)) chunks tail) :
    ∃ chunks' tail', f.Splits (header ++ (body ++ rest)) chunks' tail' ∧
      chunks'.map f.record = f.build header body :: chunks.map f.record := by
  have hgap (padding : Bytes) : Chunk.gap ⟨header, body, padding⟩ =
      wordAlign (f.declared header) - f.declared header := by
    rw [Chunk.gap, Chunk.size, hframes.size, ← hframes.declares]
  generalize wordAlign (f.declared header) - f.declared header = gap at h hgap
  rcases Nat.lt_or_ge rest.length gap with hshort | hlong
  · rw [List.drop_of_length_le (Nat.le_of_lt hshort)] at h
    have hnil := f.collect_nil.symm.trans h.collect_eq
    refine ⟨[⟨header, body, rest⟩], [], .last (c := ⟨header, body, rest⟩) hframes ?_, ?_⟩
    · rwa [hgap]
    · rw [← Except.ok.inj hnil]
      rfl
  · refine ⟨⟨header, body, rest.take gap⟩ :: chunks, tail, ?_, rfl⟩
    have hpad : (rest.take gap).length = Chunk.gap ⟨header, body, rest.take gap⟩ :=
      (List.length_take_of_le hlong).trans (hgap _).symm
    have hsplit := Splits.cons (c := ⟨header, body, rest.take gap⟩) hframes hpad h
    rwa [Chunk.bytes, List.append_assoc, List.append_assoc, List.take_append_drop] at hsplit

/-- What can be read splits into chunks, and the records are theirs. -/
theorem exists_splits_of_collect {data : Bytes} {as : List α} (h : f.collect data = .ok as) :
    ∃ chunks tail, f.Splits data chunks tail ∧ as = chunks.map f.record := by
  induction data using f.stream_ind generalizing as with
  | short data hlt =>
    rw [f.collect_of_lt hlt] at h
    exact ⟨[], data, .tail hlt, (Except.ok.inj h).symm⟩
  | fault data e hge hd => simp [f.collect_of_decode_error hge hd] at h
  | record data a hd ih =>
    rw [f.collect_of_decode hd] at h
    cases hb : f.collect (f.behind data) with
    | error e => simp [hb, Except.map] at h
    | ok as' =>
      simp only [hb, Except.map, Except.ok.injEq] at h
      obtain ⟨chunks, tail, hsplits, rfl⟩ := ih hb
      obtain ⟨header, body, rest, rfl, hframes, rfl⟩ := exists_frames_of_decode hd
      rw [(f.decode_of_frames hframes rest).2] at hsplits
      obtain ⟨chunks', tail', hsplits', hrecords⟩ := hsplits.exists_cons hframes
      exact ⟨chunks', tail', hsplits', h.symm.trans hrecords.symm⟩

/-- A buffer is read as some records exactly if it splits into their chunks. -/
theorem collect_eq_ok_iff {data : Bytes} {as : List α} :
    f.collect data = .ok as ↔
      ∃ chunks tail, f.Splits data chunks tail ∧ as = chunks.map f.record := by
  refine ⟨exists_splits_of_collect, ?_⟩
  rintro ⟨chunks, tail, h, rfl⟩
  exact h.collect_eq

/-! ### Writing back what was read -/

namespace Writer

variable (w : f.Writer) {c : Chunk} {chunks : List Chunk}

/-- The record of a chunk is written as the chunk with zeros for padding. -/
theorem wire_record (h : f.Frames c.header c.body) : w.wire (f.record c) = c.canonical := by
  rw [wire, record, w.header_build _ h.size, w.body_build, Chunk.canonical]

theorem flatMap_wire_records (h : ∀ c ∈ chunks, f.Frames c.header c.body) :
    (chunks.map f.record).flatMap w.wire = chunks.flatMap Chunk.canonical := by
  rw [List.flatMap_map]
  exact List.flatMap_congr fun c hc => w.wire_record (h c hc)

end Writer

end Format

end GenericNetlink
