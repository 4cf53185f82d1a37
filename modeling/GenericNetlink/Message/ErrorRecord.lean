import GenericNetlink.Attribute.Stream
import GenericNetlink.Message.Header

/-!
Error records: what the kernel writes into an error message.

The code comes first and is all that must be there. The header of the request follows, and behind
the echoed request, if a flag says so, attributes that may hold an explanation.
-/

namespace GenericNetlink

/-- What an error record says: an error number with its sign changed, or zero for an
acknowledgement; the header of the request, if it is echoed; and the kernel's explanation. -/
structure ErrorRecord where
  code : Int32
  request : Option Header
  text : Option String
  deriving DecidableEq

namespace ErrorRecord

/-- The attribute kind of an explanation. -/
def textKind : UInt16 := 1

/-- The attribute kind of the offset of the offending attribute. -/
def offsetKind : UInt16 := 2

/-- How many bytes the echoed request takes. -/
def echoSize (flags : UInt16) (request : Header) : Nat :=
  if flags &&& MessageFlag.capped != 0 then Header.size else wordAlign request.length.toNat

/-- The text of the first attribute that holds an explanation, if it is text. -/
def explanation (items : List (Except Error Attribute)) : Option String := do
  let a ← items.findSome? fun
    | .ok a => if a.kind = textKind then some a else none
    | .error _ => none
  (Value.text a.value).toOption

/-- Reads the payload of an error message that has the given flags. -/
def decode (flags : UInt16) (order : ByteOrder) (payload : Bytes) : Except Error ErrorRecord :=
  if payload.hasAtLeast 4 then
    let echo := payload.drop 4
    let request := (Header.decode order echo).toOption
    let text := do
      let request ← request
      if flags &&& MessageFlag.ackAttributes != 0 then
        explanation (Attribute.items order (echo.drop (echoSize flags request)))
      else none
    .ok { code := order.i32OfBytes (payload.take 4), request, text }
  else .error (.invalidErrorCode payload.length)

/-- Whether the record is an acknowledgement. -/
def isAck (r : ErrorRecord) : Bool := r.code == 0

/-- The error that the record reports. -/
def toError (r : ErrorRecord) : Error := .ofErrno r.code r.text

end ErrorRecord

end GenericNetlink
