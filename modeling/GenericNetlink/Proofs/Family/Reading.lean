import GenericNetlink.Proofs.Family

/-!
Reading a description of a family, whatever is in it.

A description is a stream of attributes. One kind of them lists groups, as a stream of entries, and
each entry is a stream of fields. Each of the three streams is read up to its first fault, be that
an item that is no attribute or an attribute that cannot be read (`Attribute.ItemFault`), and one
that has none is read whole (`Attribute.AllRead`). What is read off it is what the last attribute of
each kind says (`Attribute.LastSays`). Together that is all that a reader of families does
(`Family.ofMessage_reads_last`), so neither other attributes nor the order of the kinds matter.
-/

namespace GenericNetlink

/-! ### Streams -/

/-- The attributes of a message, as far as they are any: what is behind the header of a command. -/
def Message.attributes (order : ByteOrder) (m : Message) : List (Except Error Attribute) :=
  Attribute.items order (m.payload.drop Command.headerSize)

/-- A stream without a fault has its items from one list only. -/
theorem eq_of_map_ok_eq {α ε : Type} {as as' : List α}
    (h : as.map (Except.ok : α → Except ε α) = as'.map .ok) : as = as' :=
  List.map_injective_iff.2 (fun _ _ => Except.ok.inj) h

namespace Attribute

/-- The fault of an item of a stream, if `fault` says which attributes have which: the item is a
fault itself, or an attribute that has one. -/
inductive ItemFault (fault : Attribute → Error → Prop) : Except Error Attribute → Error → Prop
  | malformed {e : Error} : ItemFault fault (.error e) e
  | unreadable {a : Attribute} {e : Error} : fault a e → ItemFault fault (.ok a) e

/-- All items of a stream are attributes, and can be read. -/
def AllRead (readable : Attribute → Prop) (items : List (Except Error Attribute)) : Prop :=
  ∃ as : List Attribute, items = as.map .ok ∧ ∀ a ∈ as, readable a

/-- What is said of something that attributes of one kind tell: what is in the last of their values,
or the default if there is none. -/
inductive LastSays {β : Type} (kind : UInt16) (tells : Bytes → β → Prop) (default : β)
    (as : List Attribute) : β → Prop
  | absent : values kind as = [] → LastSays kind tells default as default
  | last {v : Bytes} {x : β} : (values kind as).getLast? = some v → tells v x →
      LastSays kind tells default as x

variable {φ β : Type} {fault : Attribute → Error → Prop} {readable : Attribute → Prop}
  {items : List (Except Error Attribute)} {as as' : List Attribute} {kind : UInt16}

/-- Reading an item fails with its fault. -/
theorem bind_eq_error_iff_itemFault {f : Attribute → Except Error β}
    (h : ∀ a e, f a = .error e ↔ fault a e) {item : Except Error Attribute} {e : Error} :
    (item >>= f) = .error e ↔ ItemFault fault item e := by
  cases item with
  | error e' =>
    constructor
    · intro heq
      obtain rfl := Except.error.inj heq
      exact .malformed
    · intro hfault
      cases hfault with
      | malformed => rfl
  | ok a =>
    constructor
    · intro heq
      exact .unreadable ((h a e).1 heq)
    · intro hfault
      cases hfault with
      | unreadable ha => exact (h a e).2 ha

/-- A stream without a first fault is attributes that can be read. -/
theorem forall_not_firstOf_iff_allRead (h : ∀ a, (∀ e, ¬ fault a e) ↔ readable a) :
    (∀ e, ¬ FirstOf (ItemFault fault) items e) ↔ AllRead readable items := by
  rw [forall_not_firstOf_iff]
  constructor
  · intro hnone
    induction items with
    | nil => exact ⟨[], rfl, by simp⟩
    | cons item items ih =>
      obtain ⟨hitem, hitems⟩ := List.forall_mem_cons.1 hnone
      obtain ⟨as, rfl, has⟩ := ih hitems
      cases item with
      | error e => exact absurd .malformed (hitem e)
      | ok a =>
        have ha : readable a := (h a).1 fun e he => hitem e (.unreadable he)
        exact ⟨a :: as, rfl, List.forall_mem_cons.2 ⟨ha, has⟩⟩
  · rintro ⟨as, rfl, has⟩ item hitem e hfault
    obtain ⟨a, ha, rfl⟩ := List.mem_map.1 hitem
    cases hfault with
    | unreadable he => exact (h a).2 (has a ha) e he

section Folds

variable {set : φ → Attribute → Except Error φ} {r r' r₁ : φ} {read : Bytes → Except Error β}
  {field : φ → β}

/-- A record is read off a stream up to the first fault. -/
theorem foldlM_items_eq_error_iff (h : ∀ r a e, set r a = .error e ↔ fault a e) {e : Error} :
    items.foldlM (fun r item => do set r (← item)) r = .error e ↔
      FirstOf (ItemFault fault) items e := by
  refine foldlM_eq_error_iff ?_
  intro r item e
  exact bind_eq_error_iff_itemFault (h r)

theorem foldlM_items_of_ok :
    (as.map .ok).foldlM (fun r item => do set r (← item)) r = as.foldlM set r := by
  rw [List.foldlM_map]
  rfl

/-- The last attribute of a kind has the say in its field. -/
theorem SetsField.lastSays (h : SetsField set kind read field) {tells : Bytes → β → Prop}
    (htells : ∀ v x, read v = .ok x → tells v x) (hfold : as.foldlM set r = .ok r') :
    LastSays kind tells (field r) as (field r') := by
  obtain ⟨xs, hxs, hfield⟩ := h.field_of_foldlM hfold
  -- what is read last is read off the last value
  have hlast : (values kind as).getLast?.map read = xs.getLast?.map .ok := by
    rw [← List.getLast?_map, hxs, List.getLast?_map]
  rw [hfield, List.getLastD_eq_getLast?]
  cases hx : xs.getLast? with
  | none =>
    rw [hx, Option.map_none, Option.map_eq_none_iff, List.getLast?_eq_none_iff] at hlast
    exact .absent hlast
  | some x =>
    rw [hx, Option.map_some, Option.map_eq_some_iff] at hlast
    obtain ⟨v, hv, hread⟩ := hlast
    exact .last hv (htells v x hread)

/-- A field only depends on the values of its kind. -/
theorem SetsField.field_eq (h : SetsField set kind read field) (hfold : as.foldlM set r = .ok r')
    (hfold' : as'.foldlM set r = .ok r₁) (hsame : values kind as' = values kind as) :
    field r₁ = field r' := by
  obtain ⟨xs, hxs, hfield⟩ := h.field_of_foldlM hfold
  obtain ⟨xs', hxs', hfield'⟩ := h.field_of_foldlM hfold'
  rw [hsame, hxs] at hxs'
  rw [hfield, hfield', eq_of_map_ok_eq hxs']

end Folds

/-- What holds of the values of a kind holds of the attributes that have them. -/
theorem of_values_eq {p : Bytes → Prop} (h : ∀ a ∈ as, a.kind = kind → p a.value)
    (hsame : values kind as' = values kind as) {a : Attribute} (ha : a ∈ as')
    (hkind : a.kind = kind) : p a.value := by
  have hmem : a.value ∈ values kind as := hsame ▸ hkind ▸ mem_values ha
  obtain ⟨a', ha', hvalue⟩ := List.mem_map.1 hmem
  obtain ⟨hmem', hkind'⟩ := List.mem_filter.1 ha'
  exact hvalue ▸ h a' hmem' (by simpa using hkind')

end Attribute

/-- What is mapped in `Except` keeps its fault. -/
theorem map_eq_error_iff {α β : Type} {x : Except Error α} {f : α → β} {e : Error} :
    x.map f = .error e ↔ x = .error e := by
  cases x <;> simp [Except.map]

/-! ### Groups -/

namespace Group

open Attribute (AllRead ItemFault LastSays)

variable {order : ByteOrder} {g : Group} {a entry : Attribute} {e : Error}

/-- The fault of a field of an entry: it is of a kind that is read, and cannot be. -/
inductive Fault (order : ByteOrder) (a : Attribute) (e : Error) : Prop
  | name : a.kind = Controller.GroupField.name.kind → Value.text a.value = .error e →
      Fault order a e
  | id : a.kind = Controller.GroupField.id.kind → Value.u32 order a.value = .error e →
      Fault order a e

/-- A field of an entry that can be read. Of other kinds that are not read it can be any. -/
structure Readable (order : ByteOrder) (a : Attribute) : Prop where
  name : a.kind = Controller.GroupField.name.kind → ∃ s, Value.text a.value = .ok s
  id : a.kind = Controller.GroupField.id.kind → ∃ n, Value.u32 order a.value = .ok n

/-- The fault of an entry. -/
def EntryFault (order : ByteOrder) (entry : Attribute) (e : Error) : Prop :=
  FirstOf (ItemFault (Fault order)) (entry.nested order) e

/-- An entry that can be read. -/
def EntryReadable (order : ByteOrder) (entry : Attribute) : Prop :=
  AllRead (Readable order) (entry.nested order)

/-- What the fields of an entry say of a group: the last name and the last number. Without one they
are empty and zero. -/
structure LastSaid (order : ByteOrder) (fields : List Attribute) (g : Group) : Prop where
  name : LastSays Controller.GroupField.name.kind (Value.text · = .ok ·) "" fields g.name
  id : LastSays Controller.GroupField.id.kind (Value.u32 order · = .ok ·) 0 fields g.id

/-- An entry says all of a group. -/
def EntrySays (order : ByteOrder) (entry : Attribute) (g : Group) : Prop :=
  ∃ fields : List Attribute, entry.nested order = fields.map .ok ∧ LastSaid order fields g

/-- A value lists groups: it has one entry for each, in order. -/
def Lists (order : ByteOrder) (value : Bytes) (gs : List Group) : Prop :=
  ∃ entries : List Attribute, Attribute.items order value = entries.map .ok ∧
    List.Forall₂ (EntrySays order) entries gs

theorem set_eq_error_iff : g.set order a = .error e ↔ Fault order a e := by
  constructor
  · intro h
    unfold set at h
    split at h
    · next hname => exact .name hname (map_eq_error_iff.1 h)
    · split at h
      · next hid => exact .id hid (map_eq_error_iff.1 h)
      · cases h
  · intro h
    cases h with
    | name hname he => rw [set, if_pos hname, map_eq_error_iff, he]
    | id hid he => rw [set, if_neg (by rw [hid]; decide), if_pos hid, map_eq_error_iff, he]

theorem forall_not_fault_iff : (∀ e, ¬ Fault order a e) ↔ Readable order a := by
  constructor
  · intro h
    exact ⟨fun hk => exists_eq_ok_iff.2 fun e he => h e (.name hk he),
      fun hk => exists_eq_ok_iff.2 fun e he => h e (.id hk he)⟩
  · intro h e hfault
    cases hfault with
    | name hk he => exact exists_eq_ok_iff.1 (h.name hk) e he
    | id hk he => exact exists_eq_ok_iff.1 (h.id hk) e he

theorem ofEntry_eq_error_iff : ofEntry order entry = .error e ↔ EntryFault order entry e := by
  refine Attribute.foldlM_items_eq_error_iff ?_
  intro g a e
  exact set_eq_error_iff

theorem forall_not_entryFault_iff :
    (∀ e, ¬ EntryFault order entry e) ↔ EntryReadable order entry :=
  Attribute.forall_not_firstOf_iff_allRead fun _ => forall_not_fault_iff

/-- A group is read off an entry as the entry says. -/
theorem entrySays_of_ofEntry (h : ofEntry order entry = .ok g) : EntrySays order entry g := by
  obtain ⟨fields, hfields, -⟩ := forall_not_entryFault_iff.1 fun e he =>
    exists_eq_ok_iff.1 ⟨g, h⟩ e (ofEntry_eq_error_iff.2 he)
  rw [ofEntry, hfields, Attribute.foldlM_items_of_ok] at h
  exact ⟨fields, hfields, (setsField_name order).lastSays (fun _ _ hread => hread) h,
    (setsField_id order).lastSays (fun _ _ hread => hread) h⟩

theorem ofAttribute_eq_error_iff :
    ofAttribute order a = .error e ↔ FirstOf (ItemFault (EntryFault order)) (a.nested order) e :=
  mapM_eq_error_iff fun _ _ =>
    Attribute.bind_eq_error_iff_itemFault fun _ _ => ofEntry_eq_error_iff

/-- The groups of an attribute can be read if all of its entries can be. -/
theorem exists_ofAttribute_iff :
    (∃ gs, ofAttribute order a = .ok gs) ↔ AllRead (EntryReadable order) (a.nested order) := by
  rw [exists_eq_ok_iff,
    ← Attribute.forall_not_firstOf_iff_allRead fun _ => forall_not_entryFault_iff]
  exact forall_congr' fun e => not_congr ofAttribute_eq_error_iff

/-- Groups are read as they are listed. -/
theorem lists_of_ofAttribute {gs : List Group} (h : ofAttribute order a = .ok gs) :
    Lists order a.value gs := by
  obtain ⟨entries, hentries, -⟩ := exists_ofAttribute_iff.1 ⟨gs, h⟩
  refine ⟨entries, hentries, ?_⟩
  rw [ofAttribute, hentries, mapM_eq_ok_iff, List.map_map] at h
  have hread : List.Forall₂ (fun entry g => ofEntry order entry = .ok g) entries gs :=
    map_eq_map_ok_iff.1 h
  exact hread.imp fun _ _ => entrySays_of_ofEntry

end Group

/-! ### Families -/

namespace Family

open Attribute (AllRead ItemFault LastSays values)

variable {order : ByteOrder} {f : Family} {a : Attribute} {as as' : List Attribute}
  {items : List (Except Error Attribute)} {e : Error}

/-- The fault of an attribute of a family: it is of a kind that is read, and cannot be. -/
inductive Fault (order : ByteOrder) (a : Attribute) (e : Error) : Prop
  | id : a.kind = Controller.Field.id.kind → Value.u16 order a.value = .error e → Fault order a e
  | name : a.kind = Controller.Field.name.kind → Value.text a.value = .error e → Fault order a e
  | version : a.kind = Controller.Field.version.kind → Value.u32 order a.value = .error e →
      Fault order a e
  | maxAttribute : a.kind = Controller.Field.maxAttribute.kind →
      Value.u32 order a.value = .error e → Fault order a e
  | groups : a.kind = Controller.Field.groups.kind →
      FirstOf (ItemFault (Group.EntryFault order)) (a.nested order) e → Fault order a e

/-- An attribute of a family that can be read. Of other kinds that are not read it can be any. -/
structure Readable (order : ByteOrder) (a : Attribute) : Prop where
  id : a.kind = Controller.Field.id.kind → ∃ n, Value.u16 order a.value = .ok n
  name : a.kind = Controller.Field.name.kind → ∃ s, Value.text a.value = .ok s
  version : a.kind = Controller.Field.version.kind → ∃ n, Value.u32 order a.value = .ok n
  maxAttribute : a.kind = Controller.Field.maxAttribute.kind → ∃ n, Value.u32 order a.value = .ok n
  groups : a.kind = Controller.Field.groups.kind →
    AllRead (Group.EntryReadable order) (a.nested order)

/-- What attributes say of a family: the last value of each field. Without one it is empty or zero.
-/
structure LastSaid (order : ByteOrder) (as : List Attribute) (f : Family) : Prop where
  id : LastSays Controller.Field.id.kind (Value.u16 order · = .ok ·) 0 as f.id
  name : LastSays Controller.Field.name.kind (Value.text · = .ok ·) "" as f.name
  version : LastSays Controller.Field.version.kind (Value.u32 order · = .ok ·) 0 as f.version
  maxAttribute : LastSays Controller.Field.maxAttribute.kind (Value.u32 order · = .ok ·) 0 as
    f.maxAttribute
  groups : LastSays Controller.Field.groups.kind (Group.Lists order) [] as f.groups

/-- The kinds of attributes that say something of a family. -/
def kinds : List UInt16 :=
  [Controller.Field.id, .name, .version, .maxAttribute, .groups].map Controller.Field.kind

/-- Whether an item of a stream matters: a fault does, and so does an attribute of such a kind. -/
def matters : Except Error Attribute → Bool
  | .ok a => kinds.contains a.kind
  | .error _ => true

theorem set_eq_error_iff : f.set order a = .error e ↔ Fault order a e := by
  constructor
  · intro h
    unfold set at h
    split at h
    · next hid => exact .id hid (map_eq_error_iff.1 h)
    split at h
    · next hname => exact .name hname (map_eq_error_iff.1 h)
    split at h
    · next hversion => exact .version hversion (map_eq_error_iff.1 h)
    split at h
    · next hmax => exact .maxAttribute hmax (map_eq_error_iff.1 h)
    split at h
    · next hgroups =>
      exact .groups hgroups (Group.ofAttribute_eq_error_iff.1 (map_eq_error_iff.1 h))
    cases h
  · intro h
    cases h with
    | id hk he => simp [set, hk, map_eq_error_iff, he]
    | name hk he => simp [set, hk, map_eq_error_iff, he, Controller.Field.kind]
    | version hk he => simp [set, hk, map_eq_error_iff, he, Controller.Field.kind]
    | maxAttribute hk he => simp [set, hk, map_eq_error_iff, he, Controller.Field.kind]
    | groups hk he =>
      simp [set, hk, map_eq_error_iff, Group.ofAttribute_eq_error_iff.2 he, Controller.Field.kind]

theorem forall_not_fault_iff : (∀ e, ¬ Fault order a e) ↔ Readable order a := by
  constructor
  · intro h
    refine ⟨?_, ?_, ?_, ?_, ?_⟩
    · exact fun hk => exists_eq_ok_iff.2 fun e he => h e (.id hk he)
    · exact fun hk => exists_eq_ok_iff.2 fun e he => h e (.name hk he)
    · exact fun hk => exists_eq_ok_iff.2 fun e he => h e (.version hk he)
    · exact fun hk => exists_eq_ok_iff.2 fun e he => h e (.maxAttribute hk he)
    · intro hk
      rw [← Attribute.forall_not_firstOf_iff_allRead fun _ => Group.forall_not_entryFault_iff]
      exact fun e he => h e (.groups hk he)
  · intro h e hfault
    cases hfault with
    | id hk he => exact exists_eq_ok_iff.1 (h.id hk) e he
    | name hk he => exact exists_eq_ok_iff.1 (h.name hk) e he
    | version hk he => exact exists_eq_ok_iff.1 (h.version hk) e he
    | maxAttribute hk he => exact exists_eq_ok_iff.1 (h.maxAttribute hk) e he
    | groups hk he =>
      have hread := h.groups hk
      rw [← Attribute.forall_not_firstOf_iff_allRead
        fun _ => Group.forall_not_entryFault_iff] at hread
      exact hread e he

theorem ofAttributes_eq_error_iff :
    ofAttributes order items = .error e ↔ FirstOf (ItemFault (Fault order)) items e := by
  refine Attribute.foldlM_items_eq_error_iff ?_
  intro f a e
  exact set_eq_error_iff

/-- A family can be read off a stream exactly if all of the stream can be read. -/
theorem exists_ofAttributes_iff :
    (∃ f, ofAttributes order items = .ok f) ↔ AllRead (Readable order) items := by
  rw [exists_eq_ok_iff, ← Attribute.forall_not_firstOf_iff_allRead fun _ => forall_not_fault_iff]
  exact forall_congr' fun e => not_congr ofAttributes_eq_error_iff

theorem ofAttributes_of_ok : ofAttributes order (as.map .ok) = as.foldlM (set order) {} :=
  Attribute.foldlM_items_of_ok

/-- A family is read off attributes as they say. -/
theorem lastSaid_of_ofAttributes (h : ofAttributes order (as.map .ok) = .ok f) :
    LastSaid order as f := by
  rw [ofAttributes_of_ok] at h
  exact {
    id := (setsField_id order).lastSays (fun _ _ hread => hread) h
    name := (setsField_name order).lastSays (fun _ _ hread => hread) h
    version := (setsField_version order).lastSays (fun _ _ hread => hread) h
    maxAttribute := (setsField_maxAttribute order).lastSays (fun _ _ hread => hread) h
    groups := (setsField_groups order).lastSays (fun _ _ => Group.lists_of_ofAttribute) h }

/-- Attributes with the same values can be read alike. -/
theorem readable_of_values_eq (h : ∀ a ∈ as, Readable order a)
    (hsame : ∀ kind ∈ kinds, values kind as' = values kind as) (ha : a ∈ as') :
    Readable order a where
  id := Attribute.of_values_eq (p := fun v => ∃ n, Value.u16 order v = .ok n)
    (fun a ha => (h a ha).id) (hsame _ (by simp [kinds])) ha
  name := Attribute.of_values_eq (p := fun v => ∃ s, Value.text v = .ok s)
    (fun a ha => (h a ha).name) (hsame _ (by simp [kinds])) ha
  version := Attribute.of_values_eq (p := fun v => ∃ n, Value.u32 order v = .ok n)
    (fun a ha => (h a ha).version) (hsame _ (by simp [kinds])) ha
  maxAttribute := Attribute.of_values_eq (p := fun v => ∃ n, Value.u32 order v = .ok n)
    (fun a ha => (h a ha).maxAttribute) (hsame _ (by simp [kinds])) ha
  groups := Attribute.of_values_eq (p := fun v => AllRead _ (Attribute.items order v))
    (fun a ha => (h a ha).groups) (hsame _ (by simp [kinds])) ha

/-- So the same family is read off them. -/
theorem ofAttributes_of_values_eq (h : ofAttributes order (as.map .ok) = .ok f)
    (hsame : ∀ kind ∈ kinds, values kind as' = values kind as) :
    ofAttributes order (as'.map .ok) = .ok f := by
  obtain ⟨as₁, has₁, hread⟩ := exists_ofAttributes_iff.1 ⟨f, h⟩
  obtain rfl : as = as₁ := eq_of_map_ok_eq has₁
  obtain ⟨f', h'⟩ := exists_ofAttributes_iff.2
    ⟨as', rfl, fun a ha => readable_of_values_eq hread hsame ha⟩
  rw [ofAttributes_of_ok] at h h'
  have hid := (setsField_id order).field_eq h h' (hsame _ (by decide))
  have hname := (setsField_name order).field_eq h h' (hsame _ (by decide))
  have hversion := (setsField_version order).field_eq h h' (hsame _ (by decide))
  have hmax := (setsField_maxAttribute order).field_eq h h' (hsame _ (by decide))
  have hgroups := (setsField_groups order).field_eq h h' (hsame _ (by decide))
  have hf : f' = f := by
    cases f
    cases f'
    simp_all
  rw [ofAttributes_of_ok, h', hf]

theorem set_of_not_mem_kinds (h : a.kind ∉ kinds) : f.set order a = .ok f := by
  simp only [kinds, List.map_cons, List.map_nil, List.mem_cons, List.not_mem_nil, or_false,
    not_or] at h
  obtain ⟨hid, hname, hversion, hmax, hgroups⟩ := h
  rw [set, if_neg hid, if_neg hname, if_neg hversion, if_neg hmax, if_neg hgroups]

/-- Only the items that matter are read. -/
theorem ofAttributes_filter_matters :
    ofAttributes order (items.filter matters) = ofAttributes order items := by
  rw [ofAttributes, ofAttributes, List.foldlM_filter]
  congr 1
  funext f item
  split
  · rfl
  · next h =>
    cases item with
    | error e => exact absurd rfl h
    | ok a =>
      have hkind : a.kind ∉ kinds := by simpa [matters] using h
      exact (set_of_not_mem_kinds hkind).symm

/-- A message has a command if it has room for its header, and then its items are read. -/
theorem ofMessage_of_le {m : Message} (h : Command.headerSize ≤ m.payload.length) :
    ofMessage order m = ofAttributes order (m.attributes order) := by
  rcases m with ⟨header, _ | ⟨number, _ | ⟨version, _ | ⟨r, _ | ⟨r', payload⟩⟩⟩⟩⟩
  · simp [Command.headerSize] at h
  · simp [Command.headerSize] at h
  · simp [Command.headerSize] at h
  · simp [Command.headerSize] at h
  · rfl

theorem ofMessage_of_lt {m : Message} (h : m.payload.length < Command.headerSize) :
    ofMessage order m = .error (.malformedMessage (.shortCommand m.payload.length)) := by
  rcases m with ⟨header, _ | ⟨number, _ | ⟨version, _ | ⟨r, _ | ⟨r', payload⟩⟩⟩⟩⟩
  · rfl
  · rfl
  · rfl
  · rfl
  · simp only [Command.headerSize, List.length_cons] at h
    omega

/-- A family is read off a message exactly if this has a command, no item behind that is a fault,
and each attribute of a kind that is read can be read, also if a later one replaces what it says.
Otherwise reading fails with the first fault. A family that is read is what the last attribute of
each kind says, so any message is read as the same one that has the same values of each kind,
wherever they stand. Items of other kinds make no difference at all. -/
theorem ofMessage_reads_last (order : ByteOrder) (m : Message) :
    ((∃ f, ofMessage order m = .ok f) ↔
      Command.headerSize ≤ m.payload.length ∧ AllRead (Readable order) (m.attributes order)) ∧
    (∀ e, ofMessage order m = .error e ↔
      m.payload.length < Command.headerSize ∧
          e = .malformedMessage (.shortCommand m.payload.length) ∨
        Command.headerSize ≤ m.payload.length ∧
          FirstOf (ItemFault (Fault order)) (m.attributes order) e) ∧
    (∀ f, ofMessage order m = .ok f → ∃ as, m.attributes order = as.map .ok ∧ LastSaid order as f ∧
      ∀ m' as', Command.headerSize ≤ m'.payload.length → m'.attributes order = as'.map .ok →
        (∀ kind ∈ kinds, values kind as' = values kind as) → ofMessage order m' = .ok f) ∧
    ∀ m', Command.headerSize ≤ m.payload.length → Command.headerSize ≤ m'.payload.length →
      (m'.attributes order).filter matters = (m.attributes order).filter matters →
      ofMessage order m' = ofMessage order m := by
  rcases Nat.lt_or_ge m.payload.length Command.headerSize with hlt | hle
  · -- there is no command, and nothing is read
    have hshort : ofMessage order m =
        .error (.malformedMessage (.shortCommand m.payload.length)) := ofMessage_of_lt hlt
    refine ⟨?_, ?_, ?_, fun m' hle => absurd hlt (Nat.not_lt.2 hle)⟩
    · exact iff_of_false (by simp [hshort]) fun h => Nat.not_lt.2 h.1 hlt
    · intro e
      rw [hshort, Except.error.injEq]
      constructor
      · rintro rfl
        exact Or.inl ⟨hlt, rfl⟩
      · rintro (⟨-, rfl⟩ | ⟨hle, -⟩)
        · rfl
        · exact absurd hlt (Nat.not_lt.2 hle)
    · intro f h
      rw [hshort] at h
      cases h
  · have hread : ofMessage order m = ofAttributes order (m.attributes order) := ofMessage_of_le hle
    refine ⟨?_, ?_, ?_, ?_⟩
    · rw [hread, exists_ofAttributes_iff]
      exact ⟨fun h => ⟨hle, h⟩, fun h => h.2⟩
    · intro e
      rw [hread, ofAttributes_eq_error_iff]
      constructor
      · exact fun h => Or.inr ⟨hle, h⟩
      · rintro (⟨hlt, -⟩ | ⟨-, h⟩)
        · exact absurd hlt (Nat.not_lt.2 hle)
        · exact h
    · intro f h
      rw [hread] at h
      obtain ⟨as, has, -⟩ := exists_ofAttributes_iff.1 ⟨f, h⟩
      rw [has] at h
      refine ⟨as, has, lastSaid_of_ofAttributes h, ?_⟩
      intro m' as' hle' has' hsame
      rw [ofMessage_of_le hle', has']
      exact ofAttributes_of_values_eq h hsame
    · intro m' _ hle' hsame
      rw [hread, ofMessage_of_le hle', ← ofAttributes_filter_matters, hsame,
        ofAttributes_filter_matters]

/-- Two numbers are given, the second with a flag, and a name and a list of one group. The second
number counts also if all of these come between, and an attribute that says nothing of the family. -/
theorem ofMessage_reads_last_of_two_numbers :
    let version : Attribute := { length := 8, type := 3, value := [2, 0, 0, 0] }
    let first : Attribute := { length := 6, type := 1, value := [5, 0] }
    let second : Attribute := { length := 6, type := 0x8001, value := [7, 0] }
    let name : Attribute := .small 2 (Value.ofText "nlctrl")
    let fields : List Attribute := [.small 2 [16, 0, 0, 0], .small 1 (Value.ofText "notify")]
    let entry : Attribute := .small 1 (fields.flatMap (Attribute.wire .little))
    let listed : Attribute := .small 0x8007 ([entry].flatMap (Attribute.wire .little))
    let other : Attribute := { length := 5, type := 9, value := [1] }
    let carrying (as : List Attribute) : Message :=
      .ofCommand Controller.family 0
        { number := 1, version := 2, payload := as.flatMap (Attribute.wire .little) }
    let family : Family :=
      { id := 7, name := "nlctrl", version := 2, groups := [{ name := "notify", id := 16 }] }
    ofMessage .little (carrying [version, first, name, second, listed]) = .ok family ∧
    ofMessage .little (carrying [first, listed, other, name, version, second]) = .ok family := by
  intro version first second name fields entry listed other carrying family
  have hitems {as : List Attribute} (h : ∀ a ∈ as, a.Sealed) :
      (carrying as).attributes .little = as.map .ok := Attribute.items_wires h
  have hentry : Group.EnteredAs .little entry { name := "notify", id := 16 } :=
    ⟨by decide, fields, rfl, by decide, by decide, by decide, by decide⟩
  have hlisted : Group.ofAttribute .little listed = .ok family.groups :=
    groupsIn_of_enteredAs (.cons hentry .nil)
  have hread : ofMessage .little (carrying [version, first, name, second, listed]) =
      .ok family := by
    have hfront : [version, first, name, second].foldlM (set .little) {} =
        .ok { family with groups := [] } := by decide
    rw [ofMessage_of_le (by decide), hitems (by decide), ofAttributes_of_ok,
      show [version, first, name, second, listed] = [version, first, name, second] ++ [listed]
      from rfl, List.foldlM_append, hfront]
    have hlast : set .little { family with groups := [] } listed = .ok family := by
      rw [set, if_neg (by decide), if_neg (by decide), if_neg (by decide), if_neg (by decide),
        if_pos (by decide), hlisted]
      rfl
    show [listed].foldlM (set .little) { family with groups := [] } = .ok family
    rw [List.foldlM_cons, hlast]
    rfl
  obtain ⟨as, has, -, hsame⟩ :=
    (ofMessage_reads_last .little (carrying [version, first, name, second, listed])).2.2.1 _ hread
  rw [hitems (by decide)] at has
  obtain rfl := eq_of_map_ok_eq has
  have hvalues : ∀ kind ∈ kinds, values kind [first, listed, other, name, version, second] =
      values kind [version, first, name, second, listed] := List.forall_mem_map.2 (by decide)
  exact ⟨hread, hsame _ _ (by decide) (hitems (by decide)) hvalues⟩

end Family

end GenericNetlink
