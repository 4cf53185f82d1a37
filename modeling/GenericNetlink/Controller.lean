import GenericNetlink.Command

/-!
The controller, the one family with a fixed number: it knows all others by name.
-/

namespace GenericNetlink.Controller

/-- The family number of the controller. -/
def family : UInt16 := 0x10

/-- The commands of the controller. -/
inductive Verb where
  | unspecified
  | newFamily
  | deleteFamily
  | getFamily
  | newOperations
  | deleteOperations
  | getOperations
  | newGroup
  | deleteGroup
  | getGroup
  | getPolicy
  deriving DecidableEq

/-- The number of a command. -/
def Verb.number : Verb → UInt8
  | unspecified => 0
  | newFamily => 1
  | deleteFamily => 2
  | getFamily => 3
  | newOperations => 4
  | deleteOperations => 5
  | getOperations => 6
  | newGroup => 7
  | deleteGroup => 8
  | getGroup => 9
  | getPolicy => 10

/-- What an attribute says about a family. -/
inductive Field where
  | unspecified
  | id
  | name
  | version
  | headerSize
  | maxAttribute
  | operations
  | groups
  | policy
  | operationPolicy
  | operation
  deriving DecidableEq

/-- The attribute kind of a field. -/
def Field.kind : Field → UInt16
  | unspecified => 0
  | id => 1
  | name => 2
  | version => 3
  | headerSize => 4
  | maxAttribute => 5
  | operations => 6
  | groups => 7
  | policy => 8
  | operationPolicy => 9
  | operation => 10

/-- What an attribute says about a multicast group. -/
inductive GroupField where
  | unspecified
  | name
  | id
  deriving DecidableEq

/-- The attribute kind of a group's field. -/
def GroupField.kind : GroupField → UInt16
  | unspecified => 0
  | name => 1
  | id => 2

/-- The version of the interface that requests are written for. -/
def version : UInt8 := 1

/-- The request for every family. -/
def listRequest : Message :=
  .ofCommand family (MessageFlag.request ||| MessageFlag.dump)
    { number := Verb.getFamily.number, version }

/-- The request for the family of a name, if the name fits an attribute. -/
def getRequest (order : ByteOrder) (name : String) : Except Error Message := do
  let a ← Attribute.ofText Field.name.kind name
  let c ← Command.push order { number := Verb.getFamily.number, version } a
  return .ofCommand family MessageFlag.request c

end GenericNetlink.Controller
