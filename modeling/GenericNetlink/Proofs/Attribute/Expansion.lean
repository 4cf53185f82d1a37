import GenericNetlink.Attribute.Stream
import GenericNetlink.Proofs.Items

/-!
Opening the attributes of a stream, and those inside them, and so on.

An attribute takes a header more than what is in its value. So headers of all depths together fit
into the stream (`AttributeTree.sum_count_expand_le`), and a stream has no more depths than headers:
opened that far, nothing in it is left unopened (`AttributeTree.opensAll_of_mem_expand`), and opening
further changes nothing (`AttributeTree.expand_of_le`).
-/

namespace GenericNetlink

open Attribute (headerSize)

namespace AttributeTree

/-- How many attributes and faults there are in the tree. -/
def count : AttributeTree → Nat
  | fault _ => 1
  | leaf _ => 1
  | node _ children => 1 + (children.map count).sum

/-- Every attribute in the tree has been opened. -/
def OpensAll : AttributeTree → Prop
  | fault _ => True
  | leaf _ => False
  | node _ children => ∀ c ∈ children, c.OpensAll

variable {order : ByteOrder} {opens : Attribute → Bool} {depth : Nat} {data : Bytes}

/-- The tree of an item, opened down to the given depth. -/
def ofItem (order : ByteOrder) (opens : Attribute → Bool) :
    Nat → Except Error Attribute → AttributeTree
  | _, .error e => fault e
  | 0, .ok a => leaf a
  | depth + 1, .ok a => if opens a then node a (expand order opens depth a.value) else leaf a

theorem expand_eq_map (order : ByteOrder) (opens : Attribute → Bool) (depth : Nat)
    (data : Bytes) :
    expand order opens depth data = (Attribute.items order data).map (ofItem order opens depth) := by
  cases depth <;> exact List.map_congr_left fun item _ => by cases item <;> rfl

/-- Attributes and faults of all depths take a header each. -/
theorem sum_count_expand_le (order : ByteOrder) (opens : Attribute → Bool) (depth : Nat)
    (data : Bytes) :
    headerSize * ((expand order opens depth data).map count).sum ≤ data.length := by
  have hfault (depth : Nat) (e : Error) : count (ofItem order opens depth (.error e)) ≤ 1 := by
    simp [ofItem, count]
  have hleaf (a : Attribute) (n : Nat) : headerSize * count (leaf a) ≤ headerSize + n := by
    simp [count]
  induction depth generalizing data with
  | zero =>
    rw [expand_eq_map, List.map_map]
    exact Format.sum_items_le (f := Attribute.format order) (hfault 0)
      (fun _ body _ => hleaf _ body.length) data
  | succ depth ih =>
    rw [expand_eq_map, List.map_map]
    refine Format.sum_items_le (f := Attribute.format order) (hfault (depth + 1))
      (fun header body _ => ?_) data
    have hinside := ih body
    simp only [Function.comp_apply, ofItem]
    split
    · rw [count, Nat.mul_add, Nat.mul_one]
      exact Nat.add_le_add_left hinside headerSize
    · exact hleaf _ body.length

/-- A stream too short for a header holds nothing that could be opened. -/
theorem expand_of_lt (hlt : data.length < headerSize) : expand order opens depth data = [] := by
  rw [expand_eq_map, Attribute.items, (Attribute.format order).items_of_lt hlt]
  rfl

/-- An attribute of a stream has room for fewer headers inside it than the stream. -/
theorem length_value_div_of_mem {a : Attribute} (h : .ok a ∈ Attribute.items order data)
    (hdepth : data.length / headerSize ≤ depth + 1) : a.value.length / headerSize ≤ depth := by
  obtain ⟨header, body, -, rfl, hlen⟩ := Format.exists_frames_of_mem h
  have hlen : 4 + body.length ≤ data.length := hlen
  show body.length / 4 ≤ depth
  simp only [headerSize] at hdepth
  omega

/-- A stream that is opened as deep as headers would fit into it has been opened whole. -/
theorem opensAll_of_mem_expand (hdepth : data.length / headerSize ≤ depth) {t : AttributeTree}
    (ht : t ∈ expand order (fun _ => true) depth data) : t.OpensAll := by
  induction depth generalizing data t with
  | zero =>
    rw [expand_of_lt ((Nat.div_eq_zero_iff_lt (by decide)).1 (Nat.le_zero.1 hdepth))] at ht
    simp at ht
  | succ depth ih =>
    rw [expand_eq_map] at ht
    obtain ⟨item, hitem, rfl⟩ := List.mem_map.1 ht
    cases item with
    | error e => simp [ofItem, OpensAll]
    | ok a =>
      rw [ofItem, if_pos rfl, OpensAll]
      exact fun c hc => ih (length_value_div_of_mem hitem hdepth) hc

/-- Opening it further changes nothing. -/
theorem expand_of_le {further : Nat} (hdepth : data.length / headerSize ≤ depth)
    (hle : depth ≤ further) :
    expand order opens further data = expand order opens depth data := by
  induction depth generalizing data further with
  | zero =>
    have hlt := (Nat.div_eq_zero_iff_lt (by decide)).1 (Nat.le_zero.1 hdepth)
    rw [expand_of_lt hlt, expand_of_lt hlt]
  | succ depth ih =>
    obtain ⟨further, rfl⟩ : ∃ n, further = n + 1 := ⟨further - 1, by omega⟩
    rw [expand_eq_map, expand_eq_map]
    refine List.map_congr_left fun item hitem => ?_
    cases item with
    | error e => rfl
    | ok a =>
      rw [ofItem, ofItem, ih (length_value_div_of_mem hitem hdepth) (Nat.le_of_succ_le_succ hle)]

end AttributeTree

end GenericNetlink
