import GenericNetlink.Message.Basic
import GenericNetlink.Message.ErrorRecord

/-!
Replies: which messages answer a request, when a reply is complete, and what of it is given to
the one who asked.
-/

namespace GenericNetlink.Reply

/-- Why a message is not an accepted answer to a request: it is an error record, or its sequence
number or its port are not those of the request, looked at in this order. -/
def fault (order : ByteOrder) (request : Header) (m : Message) : Option Error :=
  if m.isError then
    match ErrorRecord.decode m.header.flags order m.payload with
    | .ok record => some record.toError
    | .error e => some e
  else if m.header.sequence ≠ request.sequence then
    some (.sequenceMismatch request.sequence m.header.sequence)
  else if m.header.portId ≠ request.portId then
    some (.portIdMismatch request.portId m.header.portId)
  else none

/-- Whether a batch ends a reply: the last of its multi-part messages is an end marker, or it has
none. -/
def isFinal (batch : List Message) : Bool :=
  match (batch.filter (·.isMulti)).getLast? with
  | some m => m.isDone
  | none => true

/-- The messages of a complete reply without an end marker behind others. -/
def withoutEnd (messages : List Message) : List Message :=
  if 1 < messages.length ∧ messages.getLast?.any (·.isDone) then messages.dropLast else messages

/-- What a complete reply gives: its messages without the end marker. A reply that is nothing but
end markers, one or two of them, is no answer. -/
def finish (messages : List Message) : Except Error (List Message) :=
  match withoutEnd messages with
  | [m] => if m.isDone then .error .unexpectedDone else .ok [m]
  | kept => .ok kept

end GenericNetlink.Reply
