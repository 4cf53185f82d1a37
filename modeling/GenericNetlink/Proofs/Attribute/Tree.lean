import GenericNetlink.Proofs.Attribute.Canonical

/-!
Trees of nested attributes.

A tree is built from its leaves up: the value of an inner attribute is its children, written back
to back. That succeeds exactly if every value fits (`Outline.Fits`), and what was written reads
back as the same tree, however deep it is (`Outline.write_then_open`).
-/

namespace GenericNetlink

open Attribute (headerSize maxValueSize nestedFlag)

/-! ### The flag of nested attributes -/

theorem or_and_flag (type flag : UInt16) : (type ||| flag) &&& flag = flag := by
  apply UInt16.eq_of_toBitVec_eq
  rw [UInt16.toBitVec_and, UInt16.toBitVec_or]
  ext i hi
  rw [BitVec.getElem_and, BitVec.getElem_or]
  cases type.toBitVec[i] <;> simp

theorem or_and_not_flag (type flag : UInt16) : (type ||| flag) &&& ~~~flag = type &&& ~~~flag := by
  apply UInt16.eq_of_toBitVec_eq
  simp only [UInt16.toBitVec_and, UInt16.toBitVec_or, UInt16.toBitVec_not]
  ext i hi
  simp only [BitVec.getElem_and, BitVec.getElem_or, BitVec.getElem_not]
  cases type.toBitVec[i] <;> simp

/-! ### Trees -/

/-- A tree of attributes that is to be built. The type of a leaf does not say that it is nested. -/
inductive Outline where
  | leaf (type : UInt16) (plain : type &&& nestedFlag = 0) (value : Bytes)
  | node (type : UInt16) (children : List Outline)

namespace Outline

/-- Induction over trees: what holds of a node if it holds of its children holds of all trees. -/
@[elab_as_elim, induction_eliminator]
theorem ind {motive : Outline → Prop}
    (leaf : ∀ type plain value, motive (leaf type plain value))
    (node : ∀ type children, (∀ c ∈ children, motive c) → motive (node type children)) :
    ∀ o, motive o
  | .leaf type plain value => leaf type plain value
  | .node type children => node type children fun c _ => ind leaf node c

/-! ### Building -/

/-- The attribute of the tree, built from the leaves up. -/
def build (order : ByteOrder) : Outline → Except Error Attribute
  | leaf type _ value => Attribute.make type value
  | node type children => do Attribute.nest order type (← children.mapM (build order))

/-- The bytes of the tree. -/
def write (order : ByteOrder) (o : Outline) : Except Error Bytes := do
  let root ← o.build order
  return (← root.encode order).2

/-- The room that the tree takes on the wire, padding included. -/
def wireSize : Outline → Nat
  | leaf _ _ value => wordAlign (headerSize + value.length)
  | node _ children => wordAlign (headerSize + (children.map wireSize).sum)

/-- No value in the tree is too large: neither that of a leaf nor all children of a node. -/
def Fits : Outline → Prop
  | leaf _ _ value => value.length ≤ maxValueSize
  | node _ children => (∀ c ∈ children, c.Fits) ∧ (children.map wireSize).sum ≤ maxValueSize

/-- How many nodes are above one another. -/
def height : Outline → Nat
  | leaf .. => 0
  | node _ children => (children.map height).max?.getD 0 + 1

/-- The tree with the flag of nested attributes taken off the types of its nodes. -/
def unflagged : Outline → Outline
  | leaf type plain value => leaf type plain value
  | node type children => node (type &&& ~~~nestedFlag) (children.map unflagged)

/-- The attribute of a tree that fits. -/
def root (order : ByteOrder) : Outline → Attribute
  | leaf type _ value => .small type value
  | node type children =>
    .small (type ||| nestedFlag) (children.flatMap fun c => (c.root order).wire order)

end Outline

namespace AttributeTree

/-- The tree of an attribute, opened down to the given depth where its type says that it is
nested. -/
def opened (order : ByteOrder) : Nat → Attribute → AttributeTree
  | 0, a => leaf a
  | depth + 1, a =>
    if a.isNested then node a (expand order Attribute.isNested depth a.value) else leaf a

/-- The outline of a tree, if there is no fault in it and every nested attribute is opened. -/
def outline? : AttributeTree → Option Outline
  | fault _ => none
  | leaf a => if h : a.type &&& nestedFlag = 0 then some (.leaf a.type h a.value) else none
  | node a children => (children.mapM outline?).map (.node (a.type &&& ~~~nestedFlag))

variable {order : ByteOrder} {depth : Nat} {a : Attribute}

theorem opened_of_plain (h : a.isNested = false) : opened order depth a = leaf a := by
  cases depth with
  | zero => rfl
  | succ depth => simp [opened, h]

/-- A nested attribute is opened to the trees of the attributes in its value. -/
theorem opened_of_nested {as : List Attribute} (h : a.isNested = true)
    (hitems : Attribute.items order a.value = as.map .ok) :
    opened order (depth + 1) a = node a (as.map (opened order depth)) := by
  have hexpand : expand order Attribute.isNested depth a.value = as.map (opened order depth) := by
    cases depth <;> simp [expand, hitems, opened]
  rw [opened, if_pos h, hexpand]

end AttributeTree

namespace Outline

variable {order : ByteOrder}

theorem height_lt {type : UInt16} {children : List Outline} {c : Outline} (h : c ∈ children) :
    c.height < (node type children).height := by
  rw [height]
  exact Nat.lt_succ_of_le (List.le_max?_getD_of_mem (List.mem_map_of_mem h))

/-- The attribute of a tree takes the room of the tree. -/
@[simp] theorem wireSize_root (order : ByteOrder) (o : Outline) :
    (o.root order).wireSize = o.wireSize := by
  induction o with
  | leaf type plain value => simp only [root, wireSize, Attribute.wireSize, Attribute.small]
  | node type children ih =>
    have hsizes : children.map (fun c => (c.root order).wireSize) = children.map wireSize :=
      List.map_congr_left ih
    rw [root, wireSize, Attribute.wireSize, Attribute.small, List.length_flatMap]
    simp only [Attribute.length_wire, hsizes]

theorem length_children (order : ByteOrder) (children : List Outline) :
    (children.flatMap fun c => (c.root order).wire order).length =
      (children.map wireSize).sum := by
  simp [List.length_flatMap]

/-- The attribute of a tree that fits has the right length. -/
theorem sealed_root (order : ByteOrder) {o : Outline} (h : o.Fits) : (o.root order).Sealed := by
  cases o with
  | leaf type plain value =>
    rw [Fits] at h
    rw [root]
    exact Attribute.sealed_small h
  | node type children =>
    rw [Fits, ← length_children order] at h
    rw [root]
    exact Attribute.sealed_small h.2

/-- Children that are built are nested, if the room that they take is not too large. -/
theorem build_node {type : UInt16} {children : List Outline} (hfits : ∀ c ∈ children, c.Fits)
    (hbuilt : ∀ c ∈ children, c.build order = .ok (c.root order)) :
    (node type children).build order =
      Attribute.make (type ||| nestedFlag)
        (children.flatMap fun c => (c.root order).wire order) := by
  have hchildren : children.mapM (build order) = .ok (children.map (root order)) :=
    mapM_eq_pure_map hbuilt
  have hsealed : ∀ a ∈ children.map (root order), a.Sealed :=
    List.forall_mem_map.2 fun c hc => sealed_root order (hfits c hc)
  have hnest := Attribute.nest_of_sealed order type hsealed
  rw [build, hchildren, ← List.flatMap_map, ← hnest]
  rfl

/-- A tree that fits is built. -/
theorem build_of_fits {o : Outline} (h : o.Fits) : o.build order = .ok (o.root order) := by
  induction o with
  | leaf type plain value =>
    rw [Fits] at h
    rw [build, root, Attribute.make_of_le h]
  | node type children ih =>
    rw [Fits, ← length_children order] at h
    rw [build_node h.1 fun c hc => ih c hc (h.1 c hc), Attribute.make_of_le h.2, root]

/-- A tree that does not fit is not built, for a value in it that is too large. -/
theorem build_of_not_fits (order : ByteOrder) {o : Outline} (h : ¬ o.Fits) :
    ∃ size, o.build order = .error (.invalidAttribute (.tooLarge size)) := by
  induction o with
  | leaf type plain value =>
    rw [Fits, Nat.not_le] at h
    exact ⟨_, by rw [build, Attribute.make_of_lt h]⟩
  | node type children ih =>
    by_cases hfits : ∀ c ∈ children, c.Fits
    · rw [Fits, ← length_children order, not_and, Nat.not_le] at h
      rw [build_node hfits fun c hc => build_of_fits (hfits c hc), Attribute.make_of_lt (h hfits)]
      exact ⟨_, rfl⟩
    · simp only [not_forall] at hfits
      obtain ⟨c, hc, hcfits⟩ := hfits
      obtain ⟨size, hbuild⟩ := ih c hc hcfits
      -- the child that stops the building need not be this one
      obtain ⟨c', hc', e, hbuild', hchildren⟩ := exists_error_of_mem hc hbuild
      have hcfits' : ¬ c'.Fits := fun hfits' => by simp [build_of_fits hfits'] at hbuild'
      obtain ⟨size', hsize'⟩ := ih c' hc' hcfits'
      refine ⟨size', ?_⟩
      rw [build, hchildren, ← hsize', hbuild']
      rfl

theorem write_of_fits {o : Outline} (h : o.Fits) :
    o.write order = .ok ((o.root order).wire order) := by
  rw [write, build_of_fits h]
  simp only [bind, Except.bind, Attribute.encode_of_sealed (sealed_root order h)]
  rfl

theorem write_of_not_fits (order : ByteOrder) {o : Outline} (h : ¬ o.Fits) :
    ∃ fault, o.write order = .error (.invalidAttribute fault) := by
  obtain ⟨size, hbuild⟩ := build_of_not_fits order h
  exact ⟨_, by rw [write, hbuild]; rfl⟩

/-! ### Reading back -/

/-- The attribute of a tree that fits is opened to the tree, if it is opened far enough. -/
theorem outline?_opened {o : Outline} (h : o.Fits) {depth : Nat} (hdepth : o.height ≤ depth) :
    (AttributeTree.opened order depth (o.root order)).outline? = some o.unflagged := by
  induction o generalizing depth with
  | leaf type plain value =>
    have hplain : (Attribute.small type value).isNested = false := by
      simp [Attribute.isNested, Attribute.small, plain]
    rw [root, AttributeTree.opened_of_plain hplain, AttributeTree.outline?, unflagged]
    exact dif_pos plain
  | node type children ih =>
    cases depth with
    | zero => simp [height] at hdepth
    | succ depth =>
      rw [Fits] at h
      have hsealed : ∀ a ∈ children.map (root order), a.Sealed :=
        List.forall_mem_map.2 fun c hc => sealed_root order (h.1 c hc)
      have hnested : ((node type children).root order).isNested = true := by
        rw [root, Attribute.isNested, Attribute.small, or_and_flag]
        rfl
      have hitems : Attribute.items order ((node type children).root order).value =
          (children.map (root order)).map .ok := by
        rw [root, ← Attribute.items_wires hsealed, List.flatMap_map]
        rfl
      -- a child is less high, so the depth that is left is enough for it
      have hchildren (c : Outline) (hc : c ∈ children) :
          (AttributeTree.opened order depth (c.root order)).outline? = some c.unflagged :=
        ih c hc (h.1 c hc) (Nat.le_of_lt_succ (Nat.lt_of_lt_of_le (height_lt hc) hdepth))
      have houtlines : ((children.map (root order)).map (AttributeTree.opened order depth)).mapM
          AttributeTree.outline? = some (children.map unflagged) := by
        rw [List.mapM_map, List.mapM_map]
        exact mapM_eq_pure_map hchildren
      rw [AttributeTree.opened_of_nested hnested hitems, AttributeTree.outline?, houtlines,
        unflagged, root, Attribute.small, or_and_not_flag]
      rfl

/-- A tree is written exactly if every value in it fits, and otherwise an attribute is at fault.
What is written is read as one attribute, and that one, opened wherever it is nested, is the tree
again, with the flag of nested attributes taken off its types. -/
theorem write_then_open (order : ByteOrder) (o : Outline) :
    ((∃ b, o.write order = .ok b) ↔ o.Fits) ∧
    (¬ o.Fits → ∃ fault, o.write order = .error (.invalidAttribute fault)) ∧
    ∀ b, o.write order = .ok b →
      ∃ a, Attribute.decode order b = .ok a ∧
        ∀ depth, o.height ≤ depth →
          (AttributeTree.opened order depth a).outline? = some o.unflagged := by
  have hfits {b : Bytes} (h : o.write order = .ok b) : o.Fits := by
    by_contra hnot
    obtain ⟨fault, hfault⟩ := write_of_not_fits order hnot
    simp [hfault] at h
  refine ⟨⟨fun ⟨b, h⟩ => hfits h, fun h => ⟨_, write_of_fits h⟩⟩, write_of_not_fits order, ?_⟩
  intro b h
  obtain rfl := Except.ok.inj ((write_of_fits (hfits h)).symm.trans h)
  refine ⟨o.root order, ?_, fun depth hdepth => outline?_opened (hfits h) hdepth⟩
  have hsealed := (sealed_root order (hfits h)).writer order
  have hread := (Format.Writer.decode_wire_append hsealed []).1
  rwa [List.append_nil] at hread

example : (node 5 [leaf 1 rfl [7], node 2 []]).write .little =
    .ok [16, 0, 5, 128, 5, 0, 1, 0, 7, 0, 0, 0, 4, 0, 2, 128] := by cbv

end Outline

end GenericNetlink
