import GenericNetlink.Controller

/-!
Families, as the controller describes them.

A description is read attribute by attribute: an attribute of a known kind sets its field, so the
last one of a kind wins, and one that cannot be read fails the whole description even if a later
one would have replaced it.
-/

namespace GenericNetlink

/-- A multicast group of a family; the name is empty or the number zero where it was not given. -/
structure Group where
  name : String := ""
  id : UInt32 := 0
  deriving DecidableEq, Inhabited

/-- A family: the type of its messages, its name, the version of its interface, the highest
attribute kind it knows, and its multicast groups. -/
structure Family where
  id : UInt16 := 0
  name : String := ""
  version : UInt32 := 0
  maxAttribute : UInt32 := 0
  groups : List Group := []
  deriving DecidableEq, Inhabited

namespace Group

/-- The group with what an attribute says about it. -/
def set (order : ByteOrder) (g : Group) (a : Attribute) : Except Error Group :=
  if a.kind = Controller.GroupField.name.kind then
    (Value.text a.value).map fun name => { g with name }
  else if a.kind = Controller.GroupField.id.kind then
    (Value.u32 order a.value).map fun id => { g with id }
  else .ok g

/-- The group that an entry describes by the attributes inside it. -/
def ofEntry (order : ByteOrder) (entry : Attribute) : Except Error Group :=
  (entry.nested order).foldlM (fun g item => do set order g (← item)) {}

/-- The groups of an attribute, one for each entry inside it. -/
def ofAttribute (order : ByteOrder) (a : Attribute) : Except Error (List Group) :=
  (a.nested order).mapM fun item => do ofEntry order (← item)

/-- The line that shows a group. -/
def line (g : Group) : String := "    group " ++ g.name ++ " id " ++ toString g.id

end Group

/-- The text with blanks behind it, up to a number of characters. -/
def padRight (width : Nat) (s : String) : String :=
  s ++ String.ofList (List.replicate (width - s.length) ' ')

namespace Family

/-- The family with what an attribute says about it. -/
def set (order : ByteOrder) (f : Family) (a : Attribute) : Except Error Family :=
  if a.kind = Controller.Field.id.kind then
    (Value.u16 order a.value).map fun id => { f with id }
  else if a.kind = Controller.Field.name.kind then
    (Value.text a.value).map fun name => { f with name }
  else if a.kind = Controller.Field.version.kind then
    (Value.u32 order a.value).map fun version => { f with version }
  else if a.kind = Controller.Field.maxAttribute.kind then
    (Value.u32 order a.value).map fun maxAttribute => { f with maxAttribute }
  else if a.kind = Controller.Field.groups.kind then
    (Group.ofAttribute order a).map fun groups => { f with groups }
  else .ok f

/-- The family that attributes describe. -/
def ofAttributes (order : ByteOrder) (items : List (Except Error Attribute)) :
    Except Error Family :=
  items.foldlM (fun f item => do set order f (← item)) {}

/-- The family that a message of the controller describes. -/
def ofMessage (order : ByteOrder) (m : Message) : Except Error Family := do
  ofAttributes order ((← m.command).attributes order)

/-- The line that shows a family without its groups. -/
def headline (f : Family) : String :=
  padRight 20 f.name ++ " id " ++ padRight 5 (toString f.id) ++
    " version " ++ padRight 3 (toString f.version) ++ " maxattr " ++ toString f.maxAttribute

/-- The lines that show a family and then its groups. -/
def lines (f : Family) : List String := f.headline :: f.groups.map Group.line

end Family

end GenericNetlink
