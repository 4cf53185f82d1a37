import GenericNetlink.Attribute.Stream
import GenericNetlink.Message.Basic
import GenericNetlink.Proofs.Alignment
import GenericNetlink.Proofs.Attribute.Expansion

/-!
Reading stays within its bounds, whatever the bytes are.

A reader works on slices of its buffer and on machine words. `Format.step?` makes its steps with all
of this checked: it gives nothing if a slice is not within the buffer, or if a number is none that a
word can hold. No length field can bring that about (`Format.step?_eq`). So reading any buffer ends,
after no more items than headers would fit into it, and so does reading what is inside the attributes
of it (`Format.reading_bounded`).
-/

namespace GenericNetlink

/-- The bytes from one place up to another; nothing if these are not in order or not within the
buffer. -/
def Bytes.slice? (data : Bytes) (first last : Nat) : Option Bytes :=
  if first ≤ last ∧ last ≤ data.length then some ((data.take last).drop first) else none

/-- The next multiple of a boundary; nothing if adding the boundary goes beyond a word, or there is
no boundary to subtract one from. -/
def alignUp? (n boundary : UInt64) : Option UInt64 :=
  if n.toNat + boundary.toNat < UInt64.size ∧ 1 ≤ boundary.toNat then some (alignUp n boundary)
  else none

theorem Bytes.slice?_of_le {data : Bytes} {first last : Nat} (hfirst : first ≤ last)
    (hlast : last ≤ data.length) : data.slice? first last = some ((data.take last).drop first) :=
  if_pos ⟨hfirst, hlast⟩

/-- Lengths of 32 bits can be rounded up in a word. -/
theorem exists_alignUp?_of_lt {n : Nat} (h : n < UInt32.size) :
    ∃ aligned, alignUp? (UInt64.ofNat n) 4 = some aligned ∧ aligned.toNat = wordAlign n := by
  have hn : (UInt64.ofNat n).toNat = n :=
    UInt64.toNat_ofNat_of_lt' (Nat.lt_trans h (by decide))
  have hfour : (4 : UInt64).toNat = 4 := rfl
  simp only [UInt32.size] at h
  refine ⟨alignUp (UInt64.ofNat n) 4, if_pos ?_, ?_⟩
  · rw [hn, hfour]
    simp only [UInt64.size]
    omega
  · rw [toNat_alignUp_four _ (by omega), hn]

namespace Format

variable {α : Type} (f : Format α)

/-- The record at the front of a buffer; nothing if one of the slices is not within it. -/
def decode? (data : Bytes) : Option (Except Error α) :=
  if data.length < f.headerSize then some (.error (f.shortHeader data.length))
  else do
    let header ← data.slice? 0 f.headerSize
    let size := f.declared header
    if size < f.headerSize ∨ data.length < size then
      some (.error (f.badLength size data.length))
    else
      let body ← data.slice? f.headerSize size
      some (.ok (f.build header body))

/-- The first item of a stream and what is left of it; nothing if one of the slices is not within
the buffer, or the room of the record goes beyond a word. -/
def step? (data : Bytes) : Option (Option (Except Error α × Bytes)) :=
  if data.length < f.headerSize then some none
  else do
    match ← f.decode? data with
    | .error e => some (some (.error e, []))
    | .ok a =>
      let header ← data.slice? 0 f.headerSize
      let room ← alignUp? (UInt64.ofNat (f.declared header)) 4
      if data.length ≤ room.toNat then some (some (.ok a, []))
      else
        let rest ← data.slice? room.toNat data.length
        some (some (.ok a, rest))

variable {f} {data : Bytes}

theorem header_slice (h : f.headerSize ≤ data.length) :
    data.slice? 0 f.headerSize = some (data.take f.headerSize) := by
  rw [Bytes.slice?_of_le (Nat.zero_le _) h, List.drop_zero]

/-- Reading a record takes no slice outside of the buffer. -/
theorem decode?_eq (f : Format α) (data : Bytes) : f.decode? data = some (f.decode data) := by
  rcases Nat.lt_or_ge data.length f.headerSize with hlt | hge
  · rw [decode?, if_pos hlt, decode, f.header_of_lt hlt]
    rfl
  · simp only [decode?, if_neg (Nat.not_lt.2 hge), header_slice hge, Option.bind_eq_bind,
      Option.bind_some]
    split
    · next hbad =>
      have hnot : ¬ (f.headerSize ≤ f.declared (data.take f.headerSize) ∧
          f.declared (data.take f.headerSize) ≤ data.length) := by omega
      simp only [decode, f.header_of_le hge, bind, Except.bind, Bytes.hasAtLeast_iff, if_neg hnot]
      rfl
    · next hgood =>
      have hdecode : f.decode data = .ok (f.build (data.take f.headerSize)
          ((data.take (f.declared (data.take f.headerSize))).drop f.headerSize)) :=
        f.decode_eq_ok_iff.2 ⟨by omega, by omega, rfl⟩
      rw [Bytes.slice?_of_le (by omega) (by omega), hdecode, Option.bind_some]

/-- Nor does a step through a stream, and the room of a record is a word. -/
theorem step?_eq (hdeclared : ∀ header, f.declared header < UInt32.size) (data : Bytes) :
    f.step? data = some (f.next? data) := by
  rcases Nat.lt_or_ge data.length f.headerSize with hlt | hge
  · rw [step?, if_pos hlt, next?, if_pos (f.isEmpty_iff.2 hlt)]
  · rw [step?, if_neg (Nat.not_lt.2 hge), next?, if_neg (by simp [f.isEmpty_eq_false_iff.2 hge]),
      decode?_eq]
    cases hd : f.decode data with
    | error e => rfl
    | ok a =>
      obtain ⟨room, hroom, hroomEq⟩ := exists_alignUp?_of_lt (hdeclared (data.take f.headerSize))
      simp only [Option.bind_eq_bind, Option.bind_some, header_slice hge, hroom]
      split
      · next hpast =>
        rw [behind, ← hroomEq, List.drop_of_length_le hpast]
      · next hwithin =>
        rw [Bytes.slice?_of_le (by omega) (Nat.le_refl _), Option.bind_some, List.take_length,
          behind, ← hroomEq]

/-- A reader goes through the buffer and comes to its end. There are no more items than headers
would fit, and only the last one can be a fault. A reader that is asked for one after the other
gives these and then nothing, however often it is asked. No step takes a slice that is not within
what is left, or computes what is no word. -/
structure Bounded (f : Format α) (data : Bytes) : Prop where
  length_le : (f.items data).length ≤ data.length / f.headerSize
  shape : ∃ fault : Option Error,
    f.items data = (f.records data).map .ok ++ fault.toList.map .error
  asked (n : Nat) : (f.next? (f.left n data)).map Prod.fst = (f.items data)[n]?
  ends : f.next? (f.left (data.length / f.headerSize) data) = none
  fused {m n : Nat} : n ≤ m → f.next? (f.left n data) = none → f.next? (f.left m data) = none
  checked (n : Nat) : f.step? (f.left n data) = some (f.next? (f.left n data))

theorem bounded (hdeclared : ∀ header, f.declared header < UInt32.size) (data : Bytes) :
    f.Bounded data where
  length_le := f.length_items_le data
  shape := f.exists_items_eq data
  asked n := f.next?_left n data
  ends := by
    have hend := f.next?_left (data.length / f.headerSize) data
    rw [List.getElem?_eq_none (f.length_items_le data)] at hend
    exact Option.map_eq_none_iff.1 hend
  fused := next?_left_of_le
  checked n := step?_eq hdeclared _

end Format

open AttributeTree (expand)

/-- Reading messages or attributes off any buffer comes to an end, within the bounds of the buffer
and of machine words: there are no more items than headers would fit into the buffer, at most one of
them is a fault, which is the last one, and then there is nothing any more. Attributes can be opened,
and those inside them, and so on: in all depths together there are no more items than headers would
fit into the buffer, and at the depth of so many none is left unopened. -/
theorem Format.reading_bounded (order : ByteOrder) (data : Bytes) :
    ((Message.format order).Bounded data ∧
      (Message.items order data).length ≤ data.length / 16) ∧
    ((Attribute.format order).Bounded data ∧
      (Attribute.items order data).length ≤ data.length / 4) ∧
    (∀ opens depth,
      ((expand order opens depth data).map AttributeTree.count).sum ≤ data.length / 4) ∧
    (∀ t ∈ expand order (fun _ => true) (data.length / 4) data, t.OpensAll) ∧
    ∀ opens depth, data.length / 4 ≤ depth →
      expand order opens depth data = expand order opens (data.length / 4) data := by
  have hmessages : (Message.format order).Bounded data :=
    Format.bounded (fun header => (Header.ofBytes order header).length.toNat_lt) data
  have hattributes : (Attribute.format order).Bounded data :=
    Format.bounded (fun header => Nat.lt_trans (Attribute.lengthField order header).toNat_lt
      (by decide)) data
  refine ⟨⟨hmessages, hmessages.length_le⟩, ⟨hattributes, hattributes.length_le⟩, ?_,
    fun t ht => AttributeTree.opensAll_of_mem_expand (Nat.le_refl _) ht,
    fun opens depth hle => AttributeTree.expand_of_le (Nat.le_refl _) hle⟩
  intro opens depth
  have hsum := AttributeTree.sum_count_expand_le order opens depth data
  exact (Nat.le_div_iff_mul_le (by decide)).2 (by rwa [Nat.mul_comm])

/-- Two attributes, one inside the other, are both opened at depth two. Opening to a depth of a
million changes nothing. -/
theorem Format.reading_bounded_of_nested :
    let data : Bytes := [8, 0, 1, 0, 4, 0, 2, 0]
    let tree := AttributeTree.node { length := 8, type := 1, value := [4, 0, 2, 0] }
      [.node { length := 4, type := 2, value := [] } []]
    expand .little (fun _ => true) 2 data = [tree] ∧ tree.OpensAll ∧
      expand .little (fun _ => true) 1000000 data = [tree] := by
  intro data tree
  obtain ⟨-, -, -, hopens, hfurther⟩ := Format.reading_bounded .little data
  have hdepth : data.length / 4 = 2 := by decide
  have hexpand : expand .little (fun _ => true) 2 [8, 0, 1, 0, 4, 0, 2, 0] = [tree] := by cbv
  rw [hdepth] at hopens hfurther
  refine ⟨hexpand, hopens tree ?_, (hfurther _ 1000000 (by decide)).trans hexpand⟩
  rw [hexpand]
  exact List.mem_singleton.2 rfl

end GenericNetlink
