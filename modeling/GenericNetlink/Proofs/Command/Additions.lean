import GenericNetlink.Command
import GenericNetlink.Proofs.Attribute.Canonical
import GenericNetlink.Proofs.Packing

/-!
Commands from the builder to the reader.

Attributes are added to a command one after the other, in place or to a copy. One that is too large
changes nothing (`Addition.perform_of_large`), any other one is written behind the payload
(`Addition.perform_of_fits`), so after any run the payload is what was added, back to back
(`after_eq`), and is read as that. The message that carries a command says where the payload
ends, so the padding behind it is not read (`added_then_carried`).
-/

namespace GenericNetlink

open Attribute (maxValueSize)

namespace Command

/-- An attempt to add an attribute to a command: in place, or to a copy, which takes the place of
the command if that succeeds. -/
inductive Addition where
  | inPlace (a : Attribute)
  | toCopy (a : Attribute)

namespace Addition

/-- The attribute that is to be added. -/
def given : Addition → Attribute
  | inPlace a | toCopy a => a

/-- Makes the attempt. -/
def perform (order : ByteOrder) (c : Command) : Addition → Except Error Unit × Command
  | inPlace a => (add order a).run c
  | toCopy a =>
    match c.push order a with
    | .ok added => (.ok (), added)
    | .error e => (.error e, c)

variable {order : ByteOrder} {c : Command} {x : Addition}

/-- In place or to a copy, the attribute is written first, and only then does the payload grow. -/
theorem perform_eq : x.perform order c =
    match x.given.encode order with
    | .ok (_, bytes) => (.ok (), { c with payload := c.payload ++ bytes })
    | .error e => (.error e, c) := by
  cases x with
  | inPlace a =>
    rw [perform, add, given]
    cases a.encode order <;> rfl
  | toCopy a =>
    rw [perform, push, given]
    cases a.encode order <;> rfl

/-- An attribute that fits is written behind the payload. -/
theorem perform_of_fits (h : x.given.value.length ≤ maxValueSize) :
    x.perform order c = (.ok (),
      { c with payload := c.payload ++ (Attribute.small x.given.type x.given.value).wire order }) := by
  rw [perform_eq, Attribute.encode_of_le h]

/-- One that does not fit leaves the command as it was. -/
theorem perform_of_large (h : maxValueSize < x.given.value.length) :
    x.perform order c = (.error (.invalidAttribute (.tooLarge x.given.value.length)), c) := by
  rw [perform_eq, Attribute.encode_of_lt h]

end Addition

/-- The command after some additions, failed ones among them. -/
def after (order : ByteOrder) (c : Command) (additions : List Addition) : Command :=
  additions.foldl (fun c x => (x.perform order c).2) c

/-- The attributes of the additions that succeed, with their lengths set. -/
def added (additions : List Addition) : List Attribute :=
  ((additions.map Addition.given).filter (·.value.length ≤ maxValueSize)).map fun a =>
    .small a.type a.value

theorem sealed_of_mem_added {additions : List Addition} : ∀ a ∈ added additions, a.Sealed := by
  intro a ha
  obtain ⟨b, hb, rfl⟩ := List.mem_map.1 ha
  exact Attribute.sealed_small (by simpa using (List.mem_filter.1 hb).2)

variable {order : ByteOrder}

/-- Additions change the payload alone, which grows by what they have added. -/
theorem after_eq (c : Command) (additions : List Addition) :
    c.after order additions =
      { c with payload := c.payload ++ (added additions).flatMap (Attribute.wire order) } := by
  induction additions generalizing c with
  | nil => simp [after, added]
  | cons x additions ih =>
    have hstep : c.after order (x :: additions) = (x.perform order c).2.after order additions :=
      rfl
    rw [hstep, ih]
    rcases Nat.lt_or_ge maxValueSize x.given.value.length with hlarge | hfits
    · have hskip : added (x :: additions) = added additions := by
        simp [added, Nat.not_le.2 hlarge]
      rw [Addition.perform_of_large hlarge, hskip]
    · have hadd : added (x :: additions) =
          .small x.given.type x.given.value :: added additions := by
        simp [added, hfits]
      rw [Addition.perform_of_fits hfits, hadd, List.flatMap_cons, List.append_assoc]

/-- What additions have added to an empty command is read back. -/
theorem attributes_after (number version : UInt8) (additions : List Addition) :
    (after order { number, version } additions).attributes order =
      (added additions).map .ok := by
  rw [after_eq, attributes, List.nil_append]
  exact Attribute.items_wires sealed_of_mem_added

/-- The message of a command, if it fits, is read back from its bytes, whatever comes after them,
and gives the command without the reserved bytes. -/
theorem decode_carried (order : ByteOrder) (family flags : UInt16) {c : Command}
    (h : Header.size + (headerSize + c.payload.length) < Message.sizeLimit) :
    ∃ m wire, (Message.ofCommand family flags c).encode order = .ok (m, wire) ∧
      m.command = .ok { c with reserved := (0, 0) } ∧
      ∀ rest, Message.decode order (wire ++ rest) = .ok m := by
  have hfits : (Message.ofCommand family flags c).size < Message.sizeLimit := by
    have hlen : c.bytes.length = headerSize + c.payload.length := by
      simp only [bytes, headerSize, List.length_cons]
      omega
    rwa [Message.size, Message.ofCommand, Message.make, hlen]
  have hsealed := (Message.sealed_withLength hfits).writer order
  exact ⟨_, _, Message.encode_eq_ok_iff.2 ⟨hfits, rfl, rfl⟩, decode_bytes c,
    fun rest => (Format.Writer.decode_wire_append hsealed rest).1⟩

/-- After any additions to an empty command its attributes are those that could be added, in order
and with their lengths set, and the next addition succeeds exactly if its value is not too large;
otherwise the command is left as it was. A command with any payload is carried by a message, if the
length of the message can say its size, and is read back from the bytes of the message, whatever
comes after them, with zeros for the reserved bytes. -/
theorem added_then_carried (order : ByteOrder) :
    (∀ (number version : UInt8) (additions : List Addition),
      let c := after order { number, version } additions
      c.attributes order = (added additions).map .ok ∧
      ∀ next : Addition,
        (next.given.value.length ≤ maxValueSize → (next.perform order c).1 = .ok ()) ∧
        (maxValueSize < next.given.value.length → next.perform order c =
          (.error (.invalidAttribute (.tooLarge next.given.value.length)), c))) ∧
    ∀ (c : Command) (family flags : UInt16),
      Header.size + (headerSize + c.payload.length) < Message.sizeLimit →
      ∃ m wire, (Message.ofCommand family flags c).encode order = .ok (m, wire) ∧
        m.command = .ok { c with reserved := (0, 0) } ∧
        ∀ rest, Message.decode order (wire ++ rest) = .ok m := by
  refine ⟨fun number version additions => ⟨attributes_after number version additions, ?_⟩,
    fun c family flags => decode_carried order family flags⟩
  intro next
  refine ⟨fun hfits => ?_, Addition.perform_of_large⟩
  rw [Addition.perform_of_fits hfits]

/-- A value that is too large is tried between two that fit, one of which comes with a wrong length.
A payload of three bytes is carried with a byte of padding and another one behind the message. -/
theorem added_then_carried_of_large_value :
    let number : Attribute := { type := 1, value := [0, 0, 0, 5] }
    let large : Attribute := { type := 2, value := Bytes.zeros 70000 }
    let text : Attribute := { length := 99, type := 3, value := [104, 105, 0] }
    let c := after .big { number := 3, version := 1 }
      [.inPlace number, .toCopy large, .toCopy text]
    let odd : Command := { number := 3, version := 1, reserved := (255, 255), payload := [1, 2, 3] }
    c.attributes .big = [.ok { number with length := 8 }, .ok { text with length := 7 }] ∧
    maxValueSize < large.value.length ∧
    (Addition.inPlace large).perform .big c =
      (.error (.invalidAttribute (.tooLarge 70000)), c) ∧
    Header.size + (headerSize + odd.payload.length) < Message.sizeLimit ∧
    ∃ m wire, (Message.ofCommand 0x1a 5 odd).encode .big = .ok (m, wire) ∧
      m.command = .ok { odd with reserved := (0, 0) } ∧
      Message.decode .big (wire ++ [9]) = .ok m := by
  intro number large text c odd
  have hlarge : maxValueSize < large.value.length := by
    rw [Bytes.length_zeros]; decide
  have hlimit : Header.size + (headerSize + odd.payload.length) < Message.sizeLimit := by decide
  obtain ⟨hbuilt, hcarried⟩ := added_then_carried .big
  obtain ⟨hread, hnext⟩ := hbuilt 3 1 [.inPlace number, .toCopy large, .toCopy text]
  obtain ⟨m, wire, hencode, hcommand, hdecode⟩ := hcarried odd 0x1a 5 hlimit
  have hadded : added [.inPlace number, .toCopy large, .toCopy text] =
      [{ number with length := 8 }, { text with length := 7 }] := by
    have hskip : ¬ large.value.length ≤ maxValueSize := Nat.not_le.2 hlarge
    have hfits : number.value.length ≤ maxValueSize ∧ text.value.length ≤ maxValueSize := by decide
    simp only [added, List.map_cons, List.map_nil, Addition.given, List.filter_cons, hskip, hfits,
      decide_true, decide_false, if_true, Bool.false_eq_true, if_false, List.filter_nil]
    rfl
  refine ⟨hread.trans (by rw [hadded]; rfl), hlarge, ?_, hlimit, m, wire, hencode, hcommand,
    hdecode [9]⟩
  have hfails := (hnext (.inPlace large)).2 hlarge
  rwa [show (Addition.inPlace large).given.value.length = 70000 from Bytes.length_zeros _]
    at hfails

end Command

end GenericNetlink
