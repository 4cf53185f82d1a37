import GenericNetlink.Proofs.Family
import GenericNetlink.Proofs.Socket.Exchange
import GenericNetlink.Proofs.Socket.Lifetime

/-!
Queries that are answered.

A query may be answered with parts that describe families, or with one such message
(`Query.Answered`). Where no call fails, asking it then shows these families and nothing else
(`Query.run_of_answered`).
-/

namespace GenericNetlink

namespace Query

/-- The numbers that the request of a query is stamped with. -/
def Options.numbers (o : Options) (sequence : UInt32) (k : Kernel) : Header :=
  { sequence, portId := if o.boundPort then k.port else k.processId }

/-- The replies that answer a query with families: one part for each and an end marker, or the one
family that was asked for by a name that fits an attribute. All messages carry the numbers of the
request. -/
inductive Answered (order : ByteOrder) (numbers : Header) :
    Query → List Family → Response → Prop
  | list {front : List Message} {marker : Message} {families : List Family} : families ≠ [] →
      List.Forall₂ (Family.AnnouncedBy order) front families →
      (∀ m ∈ front, Reply.IsPart numbers m) → Reply.IsMarker numbers marker →
      Answered order numbers .list families (.parts front marker)
  | get {name : String} {m : Message} {f : Family} :
      (Value.ofText name).length ≤ Attribute.maxValueSize → Family.AnnouncedBy order m f →
      Reply.IsData numbers m → m.isMulti = false →
      Answered order numbers (.get name) [f] (.plain m)

/-- The flags and the payload of the request that asks a query, which is command 3 in version 1: all
families are asked for by a dump, and the one of a name by an attribute that holds the name. -/
inductive Asks (order : ByteOrder) : Query → UInt16 → Bytes → Prop
  | list : Asks order .list 0x301 [3, 1, 0, 0]
  | get {name : String} : Asks order (.get name) 0x1
      ([3, 1, 0, 0] ++ (Attribute.small 2 (Value.ofText name)).wire order)

variable {order : ByteOrder} {numbers request : Header} {q : Query} {families : List Family}
  {r : Response}

theorem answers_of_numbers {m : Message} (hsequence : request.sequence = numbers.sequence)
    (hportId : request.portId = numbers.portId) (h : Reply.Answers numbers m) :
    Reply.Answers request m :=
  ⟨h.notError, h.sequence.trans hsequence.symm, h.portId.trans hportId.symm⟩

/-- An answer to a query is a reply in order. -/
theorem Answered.wellFormed (h : Answered order numbers q families r)
    (hsequence : request.sequence = numbers.sequence)
    (hportId : request.portId = numbers.portId) : r.WellFormed request := by
  have hanswers {m : Message} := answers_of_numbers (m := m) hsequence hportId
  cases h with
  | list hne hannounced hparts hmarker =>
    refine .parts ?_ (fun m hm => ?_) ⟨hanswers hmarker.toAnswers, hmarker.done, hmarker.multi⟩
    · rintro rfl
      exact hne (List.forall₂_nil_left_iff.1 hannounced)
    · have hpart := hparts m hm
      exact ⟨⟨hanswers hpart.toAnswers, hpart.notDone⟩, hpart.multi⟩
  | get _ _ hdata hplain => exact .plain ⟨hanswers hdata.toAnswers, hdata.notDone⟩ hplain

/-- It comes to messages that announce the families. -/
theorem Answered.outcome (h : Answered order numbers q families r) :
    ∃ replies, r.outcome order = .ok replies ∧
      List.Forall₂ (Family.AnnouncedBy order) replies families := by
  cases h with
  | list _ hannounced _ _ =>
    exact ⟨_, rfl, List.forall₂_map_left_iff.2 (hannounced.imp fun _ _ hm => hm)⟩
  | get _ hannounced _ _ => exact ⟨_, rfl, .cons hannounced .nil⟩

/-- The request for the family of a name that fits carries the name. -/
theorem getRequest_of_le {name : String}
    (h : (Value.ofText name).length ≤ Attribute.maxValueSize) :
    Controller.getRequest order name =
      .ok (.make 0x10 0x1 ([3, 1, 0, 0] ++ (Attribute.small 2 (Value.ofText name)).wire order)) := by
  let a := Attribute.small 2 (Value.ofText name)
  have hmake : Attribute.ofText Controller.Field.name.kind name = .ok a := Attribute.make_of_le h
  have hencode : a.encode order = .ok (a, a.wire order) :=
    Attribute.encode_of_sealed (Attribute.sealed_small h)
  rw [Controller.getRequest, hmake]
  simp only [bind, Except.bind, Command.push, hencode]
  rfl

/-- A query that is answered can be asked. -/
theorem Answered.message (h : Answered order numbers q families r) :
    ∃ flags payload, q.Asks order flags payload ∧
      q.message order = .ok (.make 0x10 flags payload) ∧
      (Message.make 0x10 flags payload).size < Message.sizeLimit := by
  cases h with
  | list => exact ⟨_, _, .list, rfl, by decide⟩
  | @get name _ _ hfits =>
    refine ⟨_, _, .get, getRequest_of_le hfits, ?_⟩
    have hround := wordAlign_lt (Attribute.headerSize + (Value.ofText name).length)
    simp only [Message.size, Message.make, List.length_append, List.length_cons, List.length_nil,
      Attribute.length_wire, Attribute.wireSize, Attribute.small, Attribute.headerSize,
      Attribute.maxValueSize, Header.size, Message.sizeLimit, UInt32.size] at hfits hround ⊢
    omega

/-- The families that replies announce are shown. -/
theorem describe_of_announced {replies : List Message}
    (h : List.Forall₂ (Family.AnnouncedBy order) replies families) :
    describe order replies = (families.flatMap Family.lines, .ok ()) := by
  induction h with
  | nil => rfl
  | cons hannounced _ ih =>
    rw [describe, Family.ofMessage_of_announcedBy hannounced, ih]
    rfl

/-- A query that is answered with families, by datagrams cut anywhere between messages, shows each
family with its groups, in order, and nothing else. If no call fails it goes well: the request for
it, of the type of the controller and with the numbers stamped on it, is all that is sent, and a
socket is created for it, used, and closed once. -/
theorem run_of_answered (o : Options) (sequence : UInt32) {k : Kernel} {datagrams : List Bytes}
    {rest : Inbox} (hanswered : q.Answered k.order (o.numbers sequence k) families r)
    (hcut : Message.Cut k.order r.messages datagrams)
    (hinbox : k.inbox = datagrams.map Delivery.ofBytes ++ rest) (hquiet : k.Quiet) :
    let outcome := q.run o sequence k
    outcome.result = .ok () ∧
    outcome.printed = families.flatMap (fun f => f.headline :: f.groups.map Group.line) ∧
    (∃ flags payload datagram looks, q.Asks k.order flags payload ∧
      q.message k.order = .ok (.make 0x10 flags payload) ∧
      Message.decode k.order datagram =
        .ok (.ofParts 0x10 flags sequence (o.numbers sequence k).portId payload) ∧
      outcome.kernel.exchanges = k.exchanges ++ .send datagram 0 :: looks ∧
      ∀ u ∈ looks, u.operation = .recv) ∧
    (∃ uses, outcome.kernel.calls = k.calls ++ .openSocket :: (uses ++ [.close]) ∧
      ∀ u ∈ uses, u.IsUse) ∧
    outcome.kernel.inbox = rest := by
  intro outcome
  obtain ⟨flags, payload, hasks, hm, hfits⟩ := hanswered.message
  let m := Message.make 0x10 flags payload
  obtain ⟨replies, hreplies, hannounced⟩ := hanswered.outcome
  let c := Connection.opened o.settings sequence k
  have hopen : Connection.openOn o.settings sequence k = .ok c :=
    Connection.openOn_of_socket (Socket.openOn_of_quiet hquiet)
  have hportId : (c.outgoing m).header.portId = (o.numbers sequence k).portId := by
    have hport : c.portId = (o.numbers sequence k).portId := by
      cases hbound : o.boundPort <;>
        simp [c, Connection.opened, Options.settings, Options.numbers, hbound]
    rw [Connection.outgoing_portId, if_pos (show m.header.portId = 0 from rfl), hport]
  obtain ⟨hresult, hclose, hrest, looks, hexchanges, hlooks⟩ :=
    Connection.exchange_of_quiet o.settings sequence hquiet hfits
      (hanswered.wellFormed rfl hportId) hcut hinbox
  -- the run takes its good course at every turn
  have hrun : outcome =
      .leaving (c.request m).2.close.2 (families.flatMap Family.lines) (.ok ()) := by
    have hreplied : c.request m = (.ok replies, (c.request m).2) :=
      Prod.ext (hresult.trans hreplies) rfl
    have hdescribed : describe (c.request m).2.order replies =
        (families.flatMap Family.lines, .ok ()) := by
      rw [Connection.request_toHost]
      exact describe_of_announced hannounced
    have hclosed : (c.request m).2.close = (.ok (), (c.request m).2.close.2) :=
      Prod.ext hclose rfl
    show q.run o sequence k = _
    simp only [run, hopen, show q.message c.order = .ok m from hm]
    rw [hreplied]
    simp only [hdescribed]
    rw [hclosed]
  rw [hrun]
  refine ⟨rfl, rfl, ⟨flags, payload, c.datagram m, looks, hasks, hm, ?_, hexchanges, hlooks⟩, ?_,
    hrest⟩
  · rw [← hportId]
    exact Message.decode_wire (Connection.sealed_outgoing hfits)
  · rw [← hrun]
    cases q.lifetime_run o sequence k with
    | refused hfault _ => exact absurd ((hquiet _ _).symm.trans hfault) (by simp)
    | spent _ hcalls huses => exact ⟨_, hcalls, huses⟩

/-- Two families are listed in two datagrams, for a request with number 5 and port 200. The
attributes of the first come in an order of their own, one of another kind among them, and its group
gives its number before its name. The second has no groups, and two bytes behind the marker are
missing. -/
theorem run_of_answered_by_two_families :
    let group : Group := { name := "notify", id := 16 }
    let nlctrl : Family :=
      { id := 16, name := "nlctrl", version := 2, maxAttribute := 10, groups := [group] }
    let ethtool : Family := { id := 21, name := "ethtool", version := 1 }
    let fields : List Attribute := [.small 2 [16, 0, 0, 0], .small 1 (Value.ofText "notify")]
    let entry : Attribute := .small 1 (fields.flatMap (Attribute.wire .little))
    let first : List Attribute := [.small 2 (Value.ofText "nlctrl"), .small 1 [16, 0],
      .small 3 [2, 0, 0, 0], .small 4 [0, 0, 0, 0], .small 5 [10, 0, 0, 0],
      .small 0x8007 ([entry].flatMap (Attribute.wire .little))]
    let second : List Attribute := [.small 5 [0, 0, 0, 0], .small 3 [1, 0, 0, 0],
      .small 2 (Value.ofText "ethtool"), .small 1 [21, 0]]
    let header : Header :=
      { type := Controller.family, flags := MessageFlag.multi, sequence := 5, portId := 200 }
    let describing (as : List Attribute) : Message :=
      { header
        payload := Command.bytes
          { number := 1, version := 2, payload := as.flatMap (Attribute.wire .little) } }
    let marker : Message := { header := { header with type := MessageType.done }, payload := [0] }
    let whole := (describing first).withLength.wire .little
    let cut := (describing second).withLength.wire .little ++
      (marker.withLength.wire .little).take 18
    let k : Kernel :=
      { order := .little, processId := 100, port := 200, descriptor := 5
        inbox := [.ofBytes whole, .ofBytes cut] }
    let o : Options := { boundPort := true }
    let r : Response := .parts [describing first, describing second] marker
    Answered .little (o.numbers 5 k) .list [nlctrl, ethtool] r ∧
      Message.Cut .little r.messages [whole, cut] ∧
      k.inbox = [whole, cut].map Delivery.ofBytes ++ [] ∧ k.Quiet ∧
      (Query.list.run o 5 k).result = .ok () ∧
      (Query.list.run o 5 k).printed =
        ["nlctrl               id 16    version 2   maxattr 10", "    group notify id 16",
          "ethtool              id 21    version 1   maxattr 0"] ∧
      (∃ datagram looks,
        Message.decode .little datagram = .ok (.ofParts 0x10 0x301 5 200 [3, 1, 0, 0]) ∧
        (Query.list.run o 5 k).kernel.exchanges = .send datagram 0 :: looks ∧
        ∀ u ∈ looks, u.operation = .recv) ∧
      ∃ uses, (Query.list.run o 5 k).kernel.calls = .openSocket :: (uses ++ [.close]) ∧
        ∀ u ∈ uses, u.IsUse := by
  intro group nlctrl ethtool fields entry first second header describing marker whole cut k o r
  have hentry : Group.EnteredAs .little entry group :=
    ⟨by decide, fields, rfl, by decide, by decide, by decide, by decide⟩
  have hgroups : Attribute.values Controller.Field.groups.kind first =
      [[entry].flatMap (Attribute.wire .little)] := by decide
  have hnone : Attribute.values Controller.Field.groups.kind second = [] := by decide
  have hfirst : Family.DescribedBy .little first nlctrl :=
    ⟨by decide, by decide, by decide, by decide, by decide, by decide,
      hgroups ▸ .listed (.cons hentry .nil)⟩
  have hsecond : Family.DescribedBy .little second ethtool :=
    ⟨by decide, by decide, by decide, by decide, by decide, by decide, hnone ▸ .absent⟩
  have hannounced : List.Forall₂ (Family.AnnouncedBy .little) [describing first, describing second]
      [nlctrl, ethtool] :=
    .cons ⟨_, first, rfl, rfl, hfirst⟩ (.cons ⟨_, second, rfl, rfl, hsecond⟩ .nil)
  have hpart (as : List Attribute) : Reply.IsPart (o.numbers 5 k) (describing as) :=
    ⟨⟨⟨rfl, rfl, rfl⟩, rfl⟩, (by decide : header.isMulti = true)⟩
  have hanswered : Answered .little (o.numbers 5 k) .list [nlctrl, ethtool] r := by
    refine .list (by simp) hannounced ?_ ⟨⟨rfl, rfl, rfl⟩, rfl, by decide⟩
    exact List.forall_mem_cons.2 ⟨hpart first, List.forall_mem_singleton.2 (hpart second)⟩
  have hencode (x : Message) (h : x.size < Message.sizeLimit) :
      x.encode .little = .ok (x.withLength, x.withLength.wire .little) :=
    Message.encode_eq_ok_iff.2 ⟨h, rfl, rfl⟩
  have hcut : Message.Cut .little r.messages [whole, cut] := by
    refine ⟨[[describing first], [describing second, marker]], rfl, .cons ?_ (.cons ?_ .nil)⟩
    · rw [show whole = whole.take whole.length from List.take_length.symm]
      exact .last (hencode _ (by decide)) (by decide)
    · exact .cons (hencode _ (by decide)) (.last (hencode marker (by decide)) (by decide))
  have hquiet : k.Quiet := fun _ _ => rfl
  obtain ⟨hresult, hprinted, ⟨flags, payload, datagram, looks, hasks, -, hasked⟩, hcalls, -⟩ :=
    run_of_answered o 5 hanswered hcut rfl hquiet
  cases hasks
  exact ⟨hanswered, hcut, rfl, hquiet, hresult, hprinted.trans (by decide),
    ⟨datagram, looks, hasked⟩, hcalls⟩

end Query

end GenericNetlink
