import GenericNetlink.Family
import GenericNetlink.Proofs.Attribute.Canonical
import GenericNetlink.Proofs.Attribute.Value
import Mathlib.Data.List.Forall2

/-!
Descriptions of families.

A description is read attribute by attribute, and each kind of attribute sets a field of its own
(`Attribute.SetsField`). So the last attribute of a kind has the say
(`Attribute.SetsField.field_of_foldlM`), wherever it stands and whatever other kinds there are.
-/

namespace GenericNetlink

namespace Attribute

/-- The values of the attributes of some kind, in order. -/
def values (kind : UInt16) (as : List Attribute) : List Bytes :=
  (as.filter (·.kind = kind)).map value

variable {kind : UInt16} {a : Attribute} {as : List Attribute}

theorem values_cons_of_eq (h : a.kind = kind) : values kind (a :: as) = a.value :: values kind as := by
  simp [values, h]

theorem values_cons_of_ne (h : a.kind ≠ kind) : values kind (a :: as) = values kind as := by
  simp [values, h]

theorem mem_values (ha : a ∈ as) : a.value ∈ values a.kind as :=
  List.mem_map_of_mem (List.mem_filter.2 ⟨ha, by simp⟩)

/-- Attributes of one kind, and no others, set a field of the record to what is read off their
value. -/
structure SetsField {φ β : Type} (set : φ → Attribute → Except Error φ) (kind : UInt16)
    (read : Bytes → Except Error β) (field : φ → β) : Prop where
  own {r r' : φ} {a : Attribute} : a.kind = kind → set r a = .ok r' → read a.value = .ok (field r')
  other {r r' : φ} {a : Attribute} : a.kind ≠ kind → set r a = .ok r' → field r' = field r

variable {φ β : Type} {set : φ → Attribute → Except Error φ} {read : Bytes → Except Error β}
  {field : φ → β} {r r' : φ}

/-- A record is read off attributes that can all be set. -/
theorem exists_foldlM (h : ∀ a ∈ as, ∀ r, ∃ r', set r a = .ok r') (r : φ) :
    ∃ r', as.foldlM set r = .ok r' := by
  induction as generalizing r with
  | nil => exact ⟨r, rfl⟩
  | cons a as ih =>
    obtain ⟨ha, has⟩ := List.forall_mem_cons.1 h
    obtain ⟨r₁, hset⟩ := ha r
    obtain ⟨r', hrest⟩ := ih has r₁
    exact ⟨r', by rw [List.foldlM_cons, hset]; exact hrest⟩

/-- The values of a kind can all be read, and the last one has the say. -/
theorem SetsField.field_of_foldlM (h : SetsField set kind read field)
    (hfold : as.foldlM set r = .ok r') :
    ∃ vs : List β, (values kind as).map read = vs.map .ok ∧ field r' = vs.getLastD (field r) := by
  induction as generalizing r with
  | nil =>
    obtain rfl : r = r' := Except.ok.inj hfold
    exact ⟨[], rfl, rfl⟩
  | cons a as ih =>
    rw [List.foldlM_cons] at hfold
    cases hset : set r a with
    | error e =>
      rw [hset] at hfold
      exact absurd hfold (by simp [bind, Except.bind])
    | ok r₁ =>
      rw [hset] at hfold
      obtain ⟨vs, hvs, hlast⟩ := ih hfold
      by_cases hkind : a.kind = kind
      · refine ⟨field r₁ :: vs, ?_, ?_⟩
        · rw [values_cons_of_eq hkind, List.map_cons, List.map_cons, hvs, h.own hkind hset]
        · rw [List.getLastD_cons, hlast]
      · refine ⟨vs, ?_, ?_⟩
        · rw [values_cons_of_ne hkind, hvs]
        · rw [hlast, h.other hkind hset]

/-- The one attribute of its kind has the say. -/
theorem SetsField.field_of_single (h : SetsField set kind read field)
    (hfold : as.foldlM set r = .ok r') {v : Bytes} {x : β} (hv : values kind as = [v])
    (hx : read v = .ok x) : field r' = x := by
  obtain ⟨vs, hvs, hlast⟩ := h.field_of_foldlM hfold
  rw [hv, List.map_singleton, hx] at hvs
  obtain ⟨x', rfl, hx'⟩ := List.map_eq_singleton_iff.1 hvs.symm
  rw [hlast, Except.ok.inj hx']
  rfl

/-- Without one of its kind a field stays as it is. -/
theorem SetsField.field_of_none (h : SetsField set kind read field)
    (hfold : as.foldlM set r = .ok r') (hv : values kind as = []) : field r' = field r := by
  obtain ⟨vs, hvs, hlast⟩ := h.field_of_foldlM hfold
  rw [hv, List.map_nil] at hvs
  rw [hlast, List.map_eq_nil_iff.1 hvs.symm]
  rfl

end Attribute

/-- What is mapped in `Except` was there to be mapped. -/
theorem exists_of_map_eq_ok {α β : Type} {x : Except Error α} {f : α → β} {b : β}
    (h : x.map f = .ok b) : ∃ a, x = .ok a ∧ f a = b := by
  cases x with
  | error e => simp [Except.map] at h
  | ok a => exact ⟨a, rfl, Except.ok.inj h⟩

/-- Steps that give something each, one by one. -/
theorem map_eq_map_ok_iff {α β ε : Type} {f : α → Except ε β} {as : List α} {bs : List β} :
    as.map f = bs.map .ok ↔ List.Forall₂ (fun a b => f a = .ok b) as bs := by
  rw [← List.forall₂_eq_eq_eq, List.forall₂_map_left_iff, List.forall₂_map_right_iff]

/-! ### Groups -/

namespace Group

variable {order : ByteOrder} {g g' : Group} {a : Attribute} {as : List Attribute}

/-- What an attribute makes of a group: it gives the name or the number, or says nothing. -/
inductive SetBy (order : ByteOrder) (g : Group) (a : Attribute) : Group → Prop
  | name {s : String} : a.kind = Controller.GroupField.name.kind → Value.text a.value = .ok s →
      SetBy order g a { g with name := s }
  | id {n : UInt32} : a.kind = Controller.GroupField.id.kind → Value.u32 order a.value = .ok n →
      SetBy order g a { g with id := n }
  | other : a.kind ≠ Controller.GroupField.name.kind → a.kind ≠ Controller.GroupField.id.kind →
      SetBy order g a g

theorem setBy (h : g.set order a = .ok g') : SetBy order g a g' := by
  unfold set at h
  split at h
  · next hname =>
    obtain ⟨s, hs, rfl⟩ := exists_of_map_eq_ok h
    exact .name hname hs
  · next hname =>
    split at h
    · next hid =>
      obtain ⟨n, hn, rfl⟩ := exists_of_map_eq_ok h
      exact .id hid hn
    · next hid =>
      obtain rfl := Except.ok.inj h
      exact .other hname hid

theorem setsField_name (order : ByteOrder) :
    Attribute.SetsField (set order) Controller.GroupField.name.kind Value.text name where
  own hkind h := by
    cases setBy h with
    | name _ hs => exact hs
    | id hid _ => exact absurd (hkind.symm.trans hid) (by decide)
    | other hname _ => exact absurd hkind hname
  other hkind h := by
    cases setBy h with
    | name hname _ => exact absurd hname hkind
    | id | other => rfl

theorem setsField_id (order : ByteOrder) :
    Attribute.SetsField (set order) Controller.GroupField.id.kind (Value.u32 order) id where
  own hkind h := by
    cases setBy h with
    | id _ hn => exact hn
    | name hname _ => exact absurd (hkind.symm.trans hname) (by decide)
    | other _ hid => exact absurd hkind hid
  other hkind h := by
    cases setBy h with
    | id hid _ => exact absurd hid hkind
    | name | other => rfl

/-- Attributes that describe a group, in any order and among others: one gives its name and one its
number. The name has no zero in it, which would end it. -/
structure DescribedBy (order : ByteOrder) (as : List Attribute) (g : Group) : Prop where
  sealed : ∀ a ∈ as, a.Sealed
  name : Attribute.values Controller.GroupField.name.kind as = [Value.ofText g.name]
  noZero : '\x00' ∉ g.name.toList
  id : Attribute.values Controller.GroupField.id.kind as = [order.bytesOfU32 g.id]

/-- An entry with the attributes that describe a group in it. -/
def EnteredAs (order : ByteOrder) (entry : Attribute) (g : Group) : Prop :=
  entry.Sealed ∧ ∃ as, entry.value = as.flatMap (Attribute.wire order) ∧ DescribedBy order as g

/-- An attribute of a description can be set. -/
theorem DescribedBy.exists_set (h : DescribedBy order as g) (ha : a ∈ as) (r : Group) :
    ∃ r', r.set order a = .ok r' := by
  have hmem := Attribute.mem_values ha
  unfold set
  split
  · next hname =>
    rw [hname, h.name, List.mem_singleton] at hmem
    rw [hmem, Value.text_ofText h.noZero]
    exact ⟨_, rfl⟩
  · split
    · next hid =>
      rw [hid, h.id, List.mem_singleton] at hmem
      rw [hmem, Value.u32_bytesOfU32]
      exact ⟨_, rfl⟩
    · exact ⟨r, rfl⟩

/-- The group that an entry describes is read off it. -/
theorem ofEntry_of_enteredAs {entry : Attribute} (h : EnteredAs order entry g) :
    ofEntry order entry = .ok g := by
  obtain ⟨-, as, hvalue, hdescribed⟩ := h
  obtain ⟨r, hr⟩ := Attribute.exists_foldlM (fun a ha => hdescribed.exists_set ha) {}
  have hname : r.name = g.name := (setsField_name order).field_of_single hr hdescribed.name
    (Value.text_ofText hdescribed.noZero)
  have hid : r.id = g.id := (setsField_id order).field_of_single hr hdescribed.id
    (Value.u32_bytesOfU32 order g.id)
  have hsame : r = g := by
    cases r
    cases g
    simp_all
  rw [ofEntry, Attribute.nested, hvalue, Attribute.items_wires hdescribed.sealed,
    List.foldlM_map]
  exact hsame ▸ hr

end Group

/-! ### Families -/

namespace Family

variable {order : ByteOrder} {f f' : Family} {a : Attribute} {as : List Attribute}

/-- The groups in the value of an attribute. -/
def groupsIn (order : ByteOrder) (value : Bytes) : Except Error (List Group) :=
  Group.ofAttribute order { value }

/-- What an attribute makes of a family: it gives one of its fields, or says nothing. -/
inductive SetBy (order : ByteOrder) (f : Family) (a : Attribute) : Family → Prop
  | id {n : UInt16} : a.kind = Controller.Field.id.kind → Value.u16 order a.value = .ok n →
      SetBy order f a { f with id := n }
  | name {s : String} : a.kind = Controller.Field.name.kind → Value.text a.value = .ok s →
      SetBy order f a { f with name := s }
  | version {n : UInt32} : a.kind = Controller.Field.version.kind →
      Value.u32 order a.value = .ok n → SetBy order f a { f with version := n }
  | maxAttribute {n : UInt32} : a.kind = Controller.Field.maxAttribute.kind →
      Value.u32 order a.value = .ok n → SetBy order f a { f with maxAttribute := n }
  | groups {gs : List Group} : a.kind = Controller.Field.groups.kind →
      groupsIn order a.value = .ok gs → SetBy order f a { f with groups := gs }
  | other : a.kind ≠ Controller.Field.id.kind → a.kind ≠ Controller.Field.name.kind →
      a.kind ≠ Controller.Field.version.kind → a.kind ≠ Controller.Field.maxAttribute.kind →
      a.kind ≠ Controller.Field.groups.kind → SetBy order f a f

theorem setBy (h : f.set order a = .ok f') : SetBy order f a f' := by
  unfold set at h
  split at h
  · next hid =>
    obtain ⟨n, hn, rfl⟩ := exists_of_map_eq_ok h
    exact .id hid hn
  next hid =>
  split at h
  · next hname =>
    obtain ⟨s, hs, rfl⟩ := exists_of_map_eq_ok h
    exact .name hname hs
  next hname =>
  split at h
  · next hversion =>
    obtain ⟨n, hn, rfl⟩ := exists_of_map_eq_ok h
    exact .version hversion hn
  next hversion =>
  split at h
  · next hmax =>
    obtain ⟨n, hn, rfl⟩ := exists_of_map_eq_ok h
    exact .maxAttribute hmax hn
  next hmax =>
  split at h
  · next hgroups =>
    obtain ⟨gs, hgs, rfl⟩ := exists_of_map_eq_ok h
    exact .groups hgroups hgs
  next hgroups =>
  obtain rfl := Except.ok.inj h
  exact .other hid hname hversion hmax hgroups

theorem setsField_id (order : ByteOrder) :
    Attribute.SetsField (set order) Controller.Field.id.kind (Value.u16 order) id where
  own hkind h := by
    cases setBy h with
    | id _ hn => exact hn
    | other hid => exact absurd hkind hid
    | _ hother => exact absurd (hkind.symm.trans hother) (by decide)
  other hkind h := by
    cases setBy h with
    | id hid _ => exact absurd hid hkind
    | _ => rfl

theorem setsField_name (order : ByteOrder) :
    Attribute.SetsField (set order) Controller.Field.name.kind Value.text name where
  own hkind h := by
    cases setBy h with
    | name _ hs => exact hs
    | other _ hother => exact absurd hkind hother
    | _ hother => exact absurd (hkind.symm.trans hother) (by decide)
  other hkind h := by
    cases setBy h with
    | name hown _ => exact absurd hown hkind
    | _ => rfl

theorem setsField_version (order : ByteOrder) :
    Attribute.SetsField (set order) Controller.Field.version.kind (Value.u32 order) version where
  own hkind h := by
    cases setBy h with
    | version _ hn => exact hn
    | other _ _ hother => exact absurd hkind hother
    | _ hother => exact absurd (hkind.symm.trans hother) (by decide)
  other hkind h := by
    cases setBy h with
    | version hown _ => exact absurd hown hkind
    | _ => rfl

theorem setsField_maxAttribute (order : ByteOrder) :
    Attribute.SetsField (set order) Controller.Field.maxAttribute.kind (Value.u32 order)
      maxAttribute where
  own hkind h := by
    cases setBy h with
    | maxAttribute _ hn => exact hn
    | other _ _ _ hother => exact absurd hkind hother
    | _ hother => exact absurd (hkind.symm.trans hother) (by decide)
  other hkind h := by
    cases setBy h with
    | maxAttribute hown _ => exact absurd hown hkind
    | _ => rfl

theorem setsField_groups (order : ByteOrder) :
    Attribute.SetsField (set order) Controller.Field.groups.kind (groupsIn order) groups where
  own hkind h := by
    cases setBy h with
    | groups _ hgs => exact hgs
    | other _ _ _ _ hother => exact absurd hkind hother
    | _ hother => exact absurd (hkind.symm.trans hother) (by decide)
  other hkind h := by
    cases setBy h with
    | groups hown _ => exact absurd hown hkind
    | _ => rfl

/-- Values that give the groups of a family: none at all if there are no groups, or one that holds an
entry for each. -/
inductive GroupsGiven (order : ByteOrder) : List Bytes → List Group → Prop
  | absent : GroupsGiven order [] []
  | listed {entries : List Attribute} {gs : List Group} :
      List.Forall₂ (Group.EnteredAs order) entries gs →
      GroupsGiven order [entries.flatMap (Attribute.wire order)] gs

/-- Attributes that describe a family, in any order and among others: one for each field, but none
need list groups that there are not. The name has no zero in it, which would end it. -/
structure DescribedBy (order : ByteOrder) (as : List Attribute) (f : Family) : Prop where
  sealed : ∀ a ∈ as, a.Sealed
  id : Attribute.values Controller.Field.id.kind as = [order.bytesOfU16 f.id]
  name : Attribute.values Controller.Field.name.kind as = [Value.ofText f.name]
  noZero : '\x00' ∉ f.name.toList
  version : Attribute.values Controller.Field.version.kind as = [order.bytesOfU32 f.version]
  maxAttribute :
    Attribute.values Controller.Field.maxAttribute.kind as = [order.bytesOfU32 f.maxAttribute]
  groups : GroupsGiven order (Attribute.values Controller.Field.groups.kind as) f.groups

/-- A message with a command that carries the attributes that describe a family. -/
def AnnouncedBy (order : ByteOrder) (m : Message) (f : Family) : Prop :=
  ∃ (c : Command) (as : List Attribute), m.payload = c.bytes ∧
    c.payload = as.flatMap (Attribute.wire order) ∧ DescribedBy order as f

/-- Listed groups are read off their list. -/
theorem groupsIn_of_enteredAs {entries : List Attribute} {gs : List Group}
    (h : List.Forall₂ (Group.EnteredAs order) entries gs) :
    groupsIn order (entries.flatMap (Attribute.wire order)) = .ok gs := by
  have hsealed : ∀ e ∈ entries, e.Sealed := (List.forall₂_and_left entries gs).1 h |>.1
  have hread : List.Forall₂ (fun e g => Group.ofEntry order e = .ok g) entries gs :=
    h.imp fun _ _ => Group.ofEntry_of_enteredAs
  have hmap : entries.map (Group.ofEntry order) = gs.map .ok := map_eq_map_ok_iff.2 hread
  rw [groupsIn, Group.ofAttribute, Attribute.nested, Attribute.items_wires hsealed, mapM_eq_ok_iff,
    List.map_map]
  exact hmap

/-- The groups of a description are none, or they are read off one value. -/
theorem GroupsGiven.eq_nil_or_read {vs : List Bytes} {gs : List Group} (h : GroupsGiven order vs gs) :
    (vs = [] ∧ gs = []) ∨ ∃ v, vs = [v] ∧ groupsIn order v = .ok gs := by
  cases h with
  | absent => exact Or.inl ⟨rfl, rfl⟩
  | listed hentries => exact Or.inr ⟨_, rfl, groupsIn_of_enteredAs hentries⟩

/-- An attribute of a description can be set. -/
theorem DescribedBy.exists_set (h : DescribedBy order as f) (ha : a ∈ as) (r : Family) :
    ∃ r', r.set order a = .ok r' := by
  have hmem := Attribute.mem_values ha
  unfold set
  split
  · next hid =>
    rw [hid, h.id, List.mem_singleton] at hmem
    rw [hmem, Value.u16_bytesOfU16]
    exact ⟨_, rfl⟩
  split
  · next hname =>
    rw [hname, h.name, List.mem_singleton] at hmem
    rw [hmem, Value.text_ofText h.noZero]
    exact ⟨_, rfl⟩
  split
  · next hversion =>
    rw [hversion, h.version, List.mem_singleton] at hmem
    rw [hmem, Value.u32_bytesOfU32]
    exact ⟨_, rfl⟩
  split
  · next hmax =>
    rw [hmax, h.maxAttribute, List.mem_singleton] at hmem
    rw [hmem, Value.u32_bytesOfU32]
    exact ⟨_, rfl⟩
  split
  · next hgroups =>
    rw [hgroups] at hmem
    rcases h.groups.eq_nil_or_read with ⟨hnone, -⟩ | ⟨v, hv, hread⟩
    · rw [hnone] at hmem
      exact absurd hmem List.not_mem_nil
    · rw [hv, List.mem_singleton] at hmem
      refine ⟨_, congrArg (Except.map _) (?_ : Group.ofAttribute order a = .ok f.groups)⟩
      rw [← hread, groupsIn, Group.ofAttribute, Attribute.nested, hmem]
      rfl
  exact ⟨r, rfl⟩

/-- A description is read as the family that it describes. -/
theorem ofAttributes_of_describedBy (h : DescribedBy order as f) :
    ofAttributes order (as.map .ok) = .ok f := by
  obtain ⟨r, hr⟩ := Attribute.exists_foldlM (fun a ha => h.exists_set ha) {}
  have hid : r.id = f.id :=
    (setsField_id order).field_of_single hr h.id (Value.u16_bytesOfU16 order f.id)
  have hname : r.name = f.name :=
    (setsField_name order).field_of_single hr h.name (Value.text_ofText h.noZero)
  have hversion : r.version = f.version :=
    (setsField_version order).field_of_single hr h.version (Value.u32_bytesOfU32 order f.version)
  have hmax : r.maxAttribute = f.maxAttribute :=
    (setsField_maxAttribute order).field_of_single hr h.maxAttribute
      (Value.u32_bytesOfU32 order f.maxAttribute)
  have hgroups : r.groups = f.groups := by
    rcases h.groups.eq_nil_or_read with ⟨hnone, hgs⟩ | ⟨v, hv, hread⟩
    · exact ((setsField_groups order).field_of_none hr hnone).trans hgs.symm
    · exact (setsField_groups order).field_of_single hr hv hread
  have hsame : r = f := by
    cases r
    cases f
    simp_all
  rw [ofAttributes, List.foldlM_map]
  exact hsame ▸ hr

/-- So is a message that announces a family. -/
theorem ofMessage_of_announcedBy {m : Message} (h : AnnouncedBy order m f) :
    ofMessage order m = .ok f := by
  obtain ⟨c, as, hpayload, hcarried, hdescribed⟩ := h
  have hcommand : m.command = .ok { c with reserved := (0, 0) } := by
    rw [Message.command, hpayload, Command.decode_bytes]
  have hattributes : Command.attributes order { c with reserved := (0, 0) } = as.map .ok := by
    rw [Command.attributes, hcarried, Attribute.items_wires hdescribed.sealed]
  rw [ofMessage, hcommand]
  show ofAttributes order (Command.attributes order { c with reserved := (0, 0) }) = _
  rw [hattributes, ofAttributes_of_describedBy hdescribed]

end Family

end GenericNetlink
