import DnsForwarder.Proofs.DomainName.Spelling
import DnsForwarder.Proofs.Message.Regular
import DnsForwarder.Proofs.Message.Replies
import DnsForwarder.Proofs.Text.Utf8

/-! Records that were received, sent on and received again. Names lose the case
of their letters when they are first received and nothing after that, and
strings lose their broken bytes. -/

namespace DnsForwarder

open Message

variable {record wire again : WireRecord} {data : RecordData Labels Octets}

def Text.recoded (bytes : Octets) : Octets :=
  Text.encode (Text.decodeLossy bytes)

theorem labels_of_storedName {labels read : Labels} (hvalid : labels.isValid)
    (hread : DomainName.toLabels (Record.storedName labels) = .ok read) :
    read = labels.lower := by
  obtain ⟨hlabels, -⟩ := labels_isValid_iff.mp hvalid
  refine DomainName.labels_of_stored (fun label hlabel hnil => ?_) hread
  have hleast := (hlabels label hlabel).1
  rw [hnil] at hleast
  exact absurd hleast (by decide)

theorem storedName_lower (labels : Labels) :
    Record.storedName labels.lower = Record.storedName labels := by
  rw [Record.storedName, DomainName.storedText_lower, Record.storedName]

namespace RecordData

theorem names_map {ν ν' σ σ' : Type} (onName : ν → ν') (onString : σ → σ')
    (data : RecordData ν σ) :
    (data.map onName onString).names = data.names.map onName := by
  cases data <;> rfl

theorem map_ok {ε ν ν' : Type} {convert : ν → Except ε ν'}
    {build : ν' → RecordData ν' Octets} {name : ν} {lowered : ν'}
    {result : RecordData ν' Octets}
    (hname : ∀ read, convert name = .ok read → read = lowered)
    (hmap : (convert name).map build = .ok result) :
    result = build lowered := by
  cases hconvert : convert name with
  | error error =>
      rw [hconvert] at hmap
      cases hmap
  | ok read =>
      rw [hconvert] at hmap
      cases hmap
      rw [hname read hconvert]

theorem toWire_ofWire {written : RecordData Labels Octets}
    (hnames : ∀ name ∈ data.names, name.isValid)
    (hwrite : (data.map Record.storedName fun bytes => String.ofList
        (Text.decodeLossy bytes)).mapNames DomainName.toLabels
      (fun string => Text.encode string.toList) = .ok written) :
    written = data.map Labels.lower Text.recoded := by
  have hread (name : Labels) (hname : name ∈ data.names) (read : Labels)
      (hread : DomainName.toLabels (Record.storedName name) = .ok read) :
      read = name.lower :=
    labels_of_storedName (hnames name hname) hread
  cases data with
  | a | aaaa =>
      cases hwrite
      rfl
  | ptr target | ns target | cname target =>
      exact map_ok (hread target List.mem_cons_self) hwrite
  | mx preference exchange =>
      exact map_ok (hread exchange List.mem_cons_self) hwrite
  | srv priority weight port target =>
      exact map_ok (hread target List.mem_cons_self) hwrite
  | soa primary mailbox =>
      obtain ⟨first, hfirst, hwrite⟩ := bind_eq_ok.mp hwrite
      obtain ⟨second, hsecond, hwrite⟩ := bind_eq_ok.mp hwrite
      cases hwrite
      rw [hread primary List.mem_cons_self first hfirst,
        hread mailbox (List.mem_cons_of_mem _ List.mem_cons_self)
        second hsecond]
      rfl
  | txt strings =>
      cases hwrite
      simp [map, Text.recoded, Function.comp_def]

theorem mapNames_names {ε ν ν' σ σ' : Type} {convert : ν → Except ε ν'}
    {onString : σ → σ'} {property : ν' → Prop}
    (hname : ∀ name read, convert name = .ok read → property read)
    {data : RecordData ν σ} {converted : RecordData ν' σ'}
    (hmap : data.mapNames convert onString = .ok converted) :
    ∀ name ∈ converted.names, property name := by
  have hsole {build : ν' → RecordData ν' σ'} {name : ν}
      (hnames : ∀ read, (build read).names = [read])
      (hmap : (convert name).map build = .ok converted) :
      ∀ name ∈ converted.names, property name := by
    cases hconvert : convert name with
    | error error =>
        rw [hconvert] at hmap
        cases hmap
    | ok read =>
        rw [hconvert] at hmap
        cases hmap
        rw [hnames read, List.forall_mem_singleton]
        exact hname name read hconvert
  cases data with
  | a | aaaa | txt =>
      cases hmap
      exact List.forall_mem_nil _
  | ptr | ns | cname | mx | srv => exact hsole (fun _ => rfl) hmap
  | soa primary mailbox =>
      obtain ⟨first, hfirst, hmap⟩ := bind_eq_ok.mp hmap
      obtain ⟨second, hsecond, hmap⟩ := bind_eq_ok.mp hmap
      cases hmap
      simp only [names, List.forall_mem_cons]
      exact ⟨hname primary first hfirst, hname mailbox second hsecond,
        List.forall_mem_nil _⟩

theorem map_sent (data : RecordData Labels Octets) :
    (data.map Labels.lower Text.recoded).sent =
      data.map Labels.lower Text.recoded := by
  cases data with
  | srv priority weight port target =>
      simp only [map, sent, DomainName.lower_lower]
  | _ => rfl

theorem Regular.map (hregular : data.Regular) :
    (data.map Labels.lower Text.recoded).Regular where
  names := by
    rw [names_map, List.forall_mem_map]
    exact fun name hname => isValid_lower (hregular.names name hname)
  strings := by
    intro hnil
    apply hregular.strings
    cases data with
    | txt strings => exact congrArg txt (List.map_eq_nil_iff.mp (txt.inj hnil))
    | _ => cases hnil

theorem ofWire_map (data : RecordData Labels Octets) :
    ((data.map Labels.lower Text.recoded).map Record.storedName fun bytes =>
      String.ofList (Text.decodeLossy bytes)) =
      data.map Record.storedName fun bytes =>
        String.ofList (Text.decodeLossy bytes) := by
  cases data with
  | txt strings =>
      simp [map, Text.recoded, Text.decodeLossy_encode, Function.comp_def]
  | _ => simp only [map, storedName_lower]

end RecordData

namespace Record

theorem toWire_named {record : Record} (hwrite : record.toWire = .ok wire) :
    wire.Named := by
  obtain ⟨owner, howner, hwrite⟩ := bind_eq_ok.mp hwrite
  obtain ⟨data, hdata, hwrite⟩ := bind_eq_ok.mp hwrite
  cases hwrite
  refine ⟨DomainName.toLabels_isValid howner, ?_⟩
  exact RecordData.mapNames_names (fun _ _ => DomainName.toLabels_isValid) hdata

theorem toWire_all_named {records : List Record} {wires : List WireRecord}
    (hwrite : records.mapM toWire = .ok wires) :
    ∀ wire ∈ wires, wire.Named := by
  intro wire hwire
  obtain ⟨record, -, hrecord⟩ := forall₂_mem_right (mapM_eq_ok hwrite) hwire
  exact toWire_named hrecord

theorem toWire_ofWire (hregular : wire.Regular)
    (hwrite : (ofWire wire).toWire = .ok again) :
    again = ⟨wire.owner.lower, wire.ttl,
      wire.data.map Labels.lower Text.recoded⟩ := by
  obtain ⟨owner, howner, hwrite⟩ := bind_eq_ok.mp hwrite
  obtain ⟨data, hdata, hwrite⟩ := bind_eq_ok.mp hwrite
  cases hwrite
  rw [labels_of_storedName hregular.owner howner,
    RecordData.toWire_ofWire hregular.data.names hdata]
  rfl

/-- What a record arrives as, after it was received and sent on, is received as
the same record. -/
theorem received_again (hregular : wire.Regular)
    (hwrite : (ofWire wire).toWire = .ok again) :
    again.Regular ∧ (arrived again).record?.map ofWire =
      some (ofWire wire) := by
  obtain rfl := toWire_ofWire hregular hwrite
  refine ⟨⟨isValid_lower hregular.owner, hregular.data.map⟩, ?_⟩
  simp only [arrived, Entry.record?, Option.map_some,
    RecordData.map_sent, ofWire, RecordData.ofWire_map, storedName_lower]

theorem received_all {wires agains : List WireRecord}
    (hregular : ∀ wire ∈ wires, wire.Regular)
    (hwrite : (wires.map ofWire).mapM toWire = .ok agains) :
    (∀ again ∈ agains, again.Regular) ∧
      ((agains.map arrived).filterMap Entry.record?).map ofWire =
        wires.map ofWire := by
  induction wires generalizing agains with
  | nil =>
      cases hwrite
      exact ⟨nofun, rfl⟩
  | cons wire rest ih =>
      obtain ⟨hwire, hrest⟩ := List.forall_mem_cons.mp hregular
      rw [List.map_cons, List.mapM_cons] at hwrite
      obtain ⟨again, hagain, hwrite⟩ := bind_eq_ok.mp hwrite
      obtain ⟨others, hothers, hwrite⟩ := bind_eq_ok.mp hwrite
      cases hwrite
      obtain ⟨hfirst, hsame⟩ := received_again hwire hagain
      obtain ⟨hlast, hall⟩ := ih hrest hothers
      refine ⟨List.forall_mem_cons.mpr ⟨hfirst, hlast⟩, ?_⟩
      obtain ⟨back, hback, hsame⟩ := Option.map_eq_some_iff.mp hsame
      rw [List.map_cons, List.filterMap_cons_some hback, List.map_cons, hall,
        hsame, List.map_cons]

end Record

namespace Response

theorem parse_eq_ok {bytes : Octets} {response : Response}
    (hparse : parse bytes = .ok response) :
    ∃ message, decode? bytes = some message ∧ message.header.isResponse ∧
      response = ofMessage message := by
  rw [parse] at hparse
  split at hparse
  next => cases hparse
  next message hdecode =>
    split at hparse
    next hresponse =>
      cases hparse
      exact ⟨message, hdecode, hresponse, rfl⟩
    next => cases hparse

end Response

namespace Message

/-- The bit of a message that says that records are missing. -/
def truncatedBit (bytes : Octets) : Bool :=
  flag (bytes.getD 2 0) 1

theorem decode?_truncated {bytes : Octets} {message : Message}
    (hdecode : decode? bytes = some message) :
    message.header.truncated = truncatedBit bytes := by
  obtain ⟨cursor, -, -, -, hheader, -⟩ := decode?_cases hdecode
  match bytes, hheader with
  | _ :: _ :: _ :: _ :: _, hheader =>
      have hsame :=
        congrArg (fun read => read.1.truncated) (Option.some.inj hheader)
      exact hsame.symm

theorem toNat_mod_sixteen {rcode : Rcode} (hrcode : rcode < 16) :
    UInt16.ofNat (rcode.toNat % 16) = rcode := by
  have hsmall : rcode.toNat < 16 := UInt16.lt_iff_toNat_lt.mp hrcode
  rw [Nat.mod_eq_of_lt hsmall, UInt16.ofNat_toNat]

/-- A response made of records that were received is received as these records,
unless the message says that some are missing. -/
theorem parse_buildResponse {header : ReplyHeader}
    {request source bytes : Octets} {message : Message} {inquiry : Inquiry}
    {rcode : Rcode} {received : Response} (hwhole : header.truncated = false)
    (hdecode : decode? request = some message)
    (hinquiry : inquiry ∈ message.questions) (hrcode : rcode < 16)
    (hreceived : Response.parse source = .ok received)
    (hbuild : buildResponse header (some inquiry) rcode received.records =
      .ok bytes)
    (hclear : truncatedBit bytes = false) :
    ∃ response, Response.parse bytes = .ok response ∧ response.id = header.id ∧
      response.rcode = rcode ∧ response.truncated = false ∧
      response.message.questions = [inquiry] ∧
      response.records = received.records := by
  obtain ⟨original, horiginal, -, rfl⟩ := Response.parse_eq_ok hreceived
  obtain ⟨wires, hwires, hencode⟩ := buildResponse_eq_ok hbuild
  rw [hwhole] at hwires
  obtain ⟨hregular, hsame⟩ :=
    Record.received_all (decode?_regular horiginal) hwires
  have hvalid : ∀ asked ∈ [inquiry], asked.name.isValid :=
    List.forall_mem_singleton.mpr (decode?_isValid hdecode inquiry hinquiry)
  obtain ⟨count, hcount, hanswer⟩ := decode?_encode hvalid hregular hencode
  have hall : count = wires.length := by
    have hbit := decode?_truncated hanswer
    rw [hclear] at hbit
    simp only [Header.arrived, replyHeader, hwhole, Bool.false_or,
      decide_eq_false_iff_not] at hbit
    omega
  subst hall
  rw [List.take_length, decide_eq_false (Nat.lt_irrefl _)] at hanswer
  have hparse : Response.parse bytes = .ok (.ofMessage
      ⟨(replyHeader header rcode).arrived false, [inquiry], wires.map arrived,
      [], [], none⟩) := by
    rw [Response.parse, hanswer]
    rfl
  refine ⟨_, hparse, rfl, ?_, ?_, rfl, hsame⟩
  · change UInt16.ofNat 0 + UInt16.ofNat (rcode.toNat % 16) = rcode
    rw [toNat_mod_sixteen hrcode]
    exact UInt16.zero_add rcode
  · change (header.truncated || false) = false
    rw [hwhole, Bool.or_false]

/-- A query for the services of `Ok`. -/
def servicesRequest : Octets :=
  [0, 7, 1, 0, 0, 1, 0, 0, 0, 0, 0, 0, 2, 0x4F, 0x6B, 0, 0, 33, 0, 1]

/-- A response with a service on `a.Ok` and, by pointers, the mail exchange of
that host. -/
def servicesSource : Octets :=
  [0, 9, 0x81, 0x80, 0, 1, 0, 2, 0, 0, 0, 0, 2, 0x6F, 0x6B, 0, 0, 33, 0, 1,
    0xC0, 12, 0, 33, 0, 1, 0, 0, 0, 60, 0, 12, 0, 1, 0, 2, 0, 53, 1, 0x61, 2,
    0x4F, 0x6B, 0,
    0xC0, 38, 0, 15, 0, 1, 0, 0, 0, 60, 0, 4, 0, 5, 0xC0, 12]

/-- The same records behind the query's question, whose name is too unlike
theirs for a pointer. -/
def servicesReply : Octets :=
  [0, 7, 0x81, 0x80, 0, 1, 0, 2, 0, 0, 0, 0, 2, 0x4F, 0x6B, 0, 0, 33, 0, 1,
    2, 0x6F, 0x6B, 0, 0, 33, 0, 1, 0, 0, 0, 60, 0, 12, 0, 1, 0, 2, 0, 53, 1,
    0x61, 2, 0x6F, 0x6B, 0,
    0xC0, 40, 0, 15, 0, 1, 0, 0, 0, 60, 0, 4, 0, 5, 0xC0, 20]

theorem services_received_again :
    ∃ response, Response.parse servicesReply = .ok response ∧ response.id = 7 ∧
      response.rcode = Rcode.noError ∧ response.truncated = false ∧
      response.message.questions = [⟨[[0x4F, 0x6B]], 33, internet⟩] ∧
      response.records =
        [⟨"ok", 60, .srv 1 2 53 "a.ok"⟩, ⟨"a.ok", 60, .mx 5 "ok"⟩] := by
  obtain ⟨message, hdecode, hinquiry⟩ : ∃ message, decode? servicesRequest =
    some message ∧ ⟨[[0x4F, 0x6B]], 33, internet⟩ ∈ message.questions :=
    ⟨(decode? servicesRequest).get (by decide +kernel), by simp,
      by decide +kernel⟩
  obtain ⟨received, hreceived, hrecords⟩ : ∃ received,
      Response.parse servicesSource = .ok received ∧ received.records =
        [⟨"ok", 60, .srv 1 2 53 "a.ok"⟩, ⟨"a.ok", 60, .mx 5 "ok"⟩] :=
    ⟨.ofMessage ((decode? servicesSource).get (by decide +kernel)),
      by decide +kernel, by decide +kernel⟩
  have hbuild :
      buildResponse ⟨7, query, true, true, false⟩
      (some ⟨[[0x4F, 0x6B]], 33, internet⟩)
      Rcode.noError received.records = .ok servicesReply := by
    rw [hrecords]
    decide +kernel
  rw [← hrecords]
  exact parse_buildResponse rfl hdecode hinquiry (by decide) hreceived
    hbuild (by decide)

end Message

end DnsForwarder
