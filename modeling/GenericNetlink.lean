import GenericNetlink.Main
import GenericNetlink.Proofs.Alignment
import GenericNetlink.Transport.Logged
import GenericNetlink.Proofs.Mailbox
import GenericNetlink.Proofs.Reading
import GenericNetlink.Proofs.Request.Basic
import GenericNetlink.Proofs.Request.Outcome
import GenericNetlink.Proofs.Request.Attribution
import GenericNetlink.Proofs.Request.Completeness
import GenericNetlink.Proofs.Packing
import GenericNetlink.Proofs.Response
import GenericNetlink.Proofs.Request.Batching
import GenericNetlink.Proofs.Receiving
import GenericNetlink.Proofs.Session.Account
import GenericNetlink.Proofs.Session.Dialogue
import GenericNetlink.Proofs.Session.Backlog
import GenericNetlink.Proofs.Grammar
import GenericNetlink.Proofs.Message.Canonical
import GenericNetlink.Proofs.Message.ErrorRecord
import GenericNetlink.Proofs.Attribute.Canonical
import GenericNetlink.Proofs.Attribute.Tree
import GenericNetlink.Proofs.Request.Provenance
import GenericNetlink.Proofs.Command.Additions
import GenericNetlink.Proofs.Query
import GenericNetlink.Proofs.Family.Reading
import GenericNetlink.Proofs.Truncation
import GenericNetlink.Proofs.Bounds
import GenericNetlink.Proofs.ReceiveBuffer
import GenericNetlink.Proofs.Socket.Timeouts
import GenericNetlink.Proofs.Socket.Failures
import GenericNetlink.Proofs.Rounding
import GenericNetlink.Proofs.Attribute.Encoding
import GenericNetlink.Proofs.Attribute.Text
