import GenericNetlink.Reply
import GenericNetlink.Transport.Basic

/-!
Connections: one request at a time over a transport.

A request is stamped with the next sequence number and, unless it names one, with the port of the
connection. Then datagrams are received until one ends the reply, and every message in them is
checked against the request before it is accepted.
-/

namespace GenericNetlink

/-- A connection over a transport, on a host in whose byte order it speaks: the number that the next
request will carry, the port stamped on requests that name none, and whether the connection has been
closed. -/
structure Connection (σ : Type) extends Host where
  transport : σ
  sequence : UInt32
  portId : UInt32
  closed : Bool := false

namespace Connection

variable {σ : Type}

/-- The request as it is sent: with the next sequence number and a port. -/
def stamp (c : Connection σ) (m : Message) : Message :=
  { m with
    header := { m.header with
      sequence := c.sequence
      portId := if m.header.portId = 0 then c.portId else m.header.portId } }

variable [Transport σ]

/-- The messages of the next datagram. -/
def receiveBatch (host : Host) (s : σ) : Except Error (List Message) × σ :=
  match Transport.receiveWhole host.page s with
  | (.error e, s) => (.error (.receive e), s)
  | (.ok datagram, s) => (Message.decodeAll host.order datagram.padded, s)

theorem waiting_receiveBatch {host : Host} {s t : σ} {batch : List Message}
    (h : receiveBatch host s = (.ok batch, t)) : Transport.waiting t < Transport.waiting s := by
  unfold receiveBatch at h
  split at h
  · simp at h
  · next datagram s' hr =>
    obtain ⟨-, rfl⟩ := Prod.mk.inj h
    exact Transport.waiting_receiveWhole hr

/-- Every message of the reply to a request, up to the end of the datagram that ends it. -/
def collect (host : Host) (request : Header) (s : σ) : Except Error (List Message) × σ :=
  match _h : receiveBatch host s with
  | (.error e, s) => (.error e, s)
  | (.ok batch, s) =>
    match batch.findSome? (Reply.fault host.order request) with
    | some e => (.error e, s)
    | none =>
      if Reply.isFinal batch then (.ok batch, s)
      else
        let (rest, s) := collect host request s
        (rest.map (batch ++ ·), s)
termination_by Transport.waiting s
decreasing_by exact waiting_receiveBatch _h

/-- The reply to a request that has been sent. -/
def receiveReply (host : Host) (request : Header) (s : σ) : Except Error (List Message) × σ :=
  let (messages, s) := collect host request s
  (messages.bind Reply.finish, s)

/-- Sends a request and receives the reply to it. The sequence number is used up also if the
sending fails. -/
def request (c : Connection σ) (m : Message) : Except Error (List Message) × Connection σ :=
  if c.closed then (.error .connectionClosed, c)
  else
    let next := { c with sequence := c.sequence + 1 }
    match (c.stamp m).encode c.order with
    | .error e => (.error e, next)
    | .ok (sent, datagram) =>
      match Transport.send datagram c.transport with
      | (.error e, transport) => (.error (.send e), { next with transport })
      | (.ok (), transport) =>
        let (reply, transport) := receiveReply c.toHost sent.header transport
        (reply, { next with transport })

/-- Closes the connection, which then counts as closed also if the transport fails to close. -/
def close (c : Connection σ) : Except Error Unit × Connection σ :=
  let (result, transport) := Transport.close c.transport
  (result.mapError .close, { c with transport, closed := true })

end Connection

end GenericNetlink
