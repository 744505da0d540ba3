import DnsForwarder.Proofs.Engine.Provenance
import DnsForwarder.Proofs.Message.RoundTrip
import DnsForwarder.Proofs.Server.Replies

/-! What a client reads in a reply, beside what was read of the response that
the reply is made from. The records are the same in the same order, but for the
case of letters in names and for the bytes of strings that are no text. -/

namespace DnsForwarder

open Message

theorem Text.recoded_eq_iff {bytes : Octets} :
    Text.recoded bytes = bytes ↔ ∃ text, Text.encode text = bytes := by
  constructor
  · intro hsame
    exact ⟨Text.decodeLossy bytes, hsame⟩
  · rintro ⟨text, rfl⟩
    rw [Text.recoded, Text.decodeLossy_encode]

/-- A record that is sent on, beside the one that was received. -/
structure WireRecord.Relays (received sent : WireRecord) : Prop where
  owner : sent.owner.lower = received.owner.lower
  ttl : sent.ttl = received.ttl
  data : sent.data.map Labels.lower id =
    received.data.map Labels.lower Text.recoded
  texts : ∀ string ∈ received.data.strings,
    Text.recoded string = string ↔ ∃ text, Text.encode text = string

theorem RecordData.map_map {ν ν' ν'' σ σ' σ'' : Type} (data : RecordData ν σ)
    (onName : ν → ν') (onName' : ν' → ν'') (onString : σ → σ')
    (onString' : σ' → σ'') :
    (data.map onName onString).map onName' onString' =
      data.map (onName' ∘ onName) (onString' ∘ onString) := by
  cases data <;> simp [map]

theorem Record.relays {received again : WireRecord}
    (hregular : received.Regular)
    (hwrite : (Record.ofWire received).toWire = .ok again) :
    ∃ sent, (arrived again).record? = some sent ∧ received.Relays sent := by
  obtain rfl := Record.toWire_ofWire hregular hwrite
  refine ⟨_, rfl, ?_⟩
  exact {
    owner := DomainName.lower_lower received.owner
    ttl := rfl
    data := by
      have hlower : Labels.lower ∘ Labels.lower = Labels.lower :=
        funext DomainName.lower_lower
      simp only [RecordData.map_sent, RecordData.map_map, hlower,
        Function.id_comp]
    texts := fun _ _ => Text.recoded_eq_iff }

theorem Record.relays_all {received agains : List WireRecord}
    (hregular : ∀ record ∈ received, record.Regular)
    (hwrite : (received.map Record.ofWire).mapM Record.toWire = .ok agains) :
    ∃ sent, (agains.map arrived).map Entry.record? = sent.map some ∧
      List.Forall₂ WireRecord.Relays received sent := by
  have hcopies := List.forall₂_map_left_iff.mp (mapM_eq_ok hwrite)
  clear hwrite
  induction hcopies with
  | nil => exact ⟨[], rfl, .nil⟩
  | @cons record again rest others hagain _ ih =>
      obtain ⟨hrecord, hrest⟩ := List.forall_mem_cons.mp hregular
      obtain ⟨sent, hsent, hrelays⟩ := Record.relays hrecord hagain
      obtain ⟨sents, hsents, hall⟩ := ih hrest
      refine ⟨sent :: sents, ?_, .cons hrelays hall⟩
      rw [List.map_cons, List.map_cons, hsent, hsents, List.map_cons]

namespace Message

theorem decode?_encode_clear {header : Header} {questions : List Inquiry}
    {answers : List WireRecord} {bytes : Octets}
    (hquestions : ∀ inquiry ∈ questions, inquiry.name.isValid)
    (hanswers : ∀ answer ∈ answers, answer.Regular)
    (hencode : encode header questions answers = .ok bytes)
    (hclear : truncatedBit bytes = false) :
    header.truncated = false ∧ ∃ message, decode? bytes = some message ∧
      message.answers = answers.map arrived := by
  obtain ⟨count, hcount, hdecode⟩ := decode?_encode hquestions hanswers hencode
  have hbit := decode?_truncated hdecode
  rw [hclear] at hbit
  obtain ⟨hwhole, hall⟩ := Bool.or_eq_false_iff.mp hbit
  refine ⟨hwhole, _, hdecode, ?_⟩
  rw [List.take_of_length_le (Nat.not_lt.mp (of_decide_eq_false hall))]

end Message

namespace Server

variable {question : Question} {messageId : UInt16} {protocol : Protocol}
  {negativeTtl : UInt32} {source bytes : Octets} {answer : Answer}
  {server : Server} {inbound : Inbound} {context : QueryContext}

theorem reply_of_handed {reply : SentReply}
    (hasks : inbound.Asks server question context)
    (hreply : (server.conclude context answer).1.handed =
      server.handed ++ [reply]) :
    server.replyBytes context answer = .ok reply.bytes := by
  obtain ⟨request, inquiry, -, -, rfl⟩ := hasks
  have hresponder :
      (server.fill {} request inquiry inbound.responder).responder? =
        some inbound.responder := rfl
  obtain ⟨-, hcloses⟩ := server.conclude_closes answer hresponder
  -- The answer was closed with one reply or with none, and one was handed out.
  have hhanded := hcloses.handed_eq.symm.trans hreply
  rw [List.append_cancel_left_eq, closing] at hhanded
  cases hbytes : server.replyBytes
    (server.fill {} request inquiry inbound.responder) answer with
  | error error =>
      rw [hbytes] at hhanded
      cases hhanded
  | ok bytes =>
      rw [hbytes] at hhanded
      cases hhanded
      rfl

theorem decode?_reply (hasks : inbound.Asks server question context)
    (hreply : server.replyBytes context answer = .ok bytes)
    (hclear : truncatedBit bytes = false) :
    ∃ wires, answer.records.mapM Record.toWire = .ok wires ∧
      ((∀ wire ∈ wires, wire.Regular) →
        ∃ message, decode? bytes = some message ∧
        message.answers = wires.map arrived) := by
  obtain ⟨request, inquiry, hdecode, hquestion, rfl⟩ := hasks
  have hvalid : ∀ asked ∈ [inquiry], asked.name.isValid := by
    rw [← question_eq_ok hquestion]
    exact decode?_isValid hdecode
  rcases server.replyBytes_cases
    (server.fill {} request inquiry inbound.responder) answer with
    ⟨error, -, herror⟩ | ⟨whole, hwhole, hsame | hsame⟩
  · rw [herror] at hreply
    cases hreply
  · rw [hsame] at hreply
    cases hreply
    obtain ⟨wires, hwires, hencode⟩ := buildResponse_eq_ok hwhole
    exact ⟨wires, hwires, fun hregular =>
      (decode?_encode_clear hvalid hregular hencode hclear).2⟩
  · -- The mark that the reply was cut would be set.
    rw [hsame] at hreply
    obtain ⟨wires, hwires, hencode⟩ := buildResponse_eq_ok hreply
    cases hwires
    cases (decode?_encode_clear hvalid (by simp) hencode hclear).1

/-- A client that gets a reply without the mark that it was cut reads the
records with data of the answer section that the upstream server sent, in their
order and no others. -/
theorem records_are_relayed {reply : SentReply}
    (haccepted : judge question messageId protocol negativeTtl (.ok source) =
      .settled answer)
    (hasks : inbound.Asks server answer.question context)
    (hreply : (server.conclude context answer).1.handed =
      server.handed ++ [reply])
    (hclear : truncatedBit reply.bytes = false) :
    ∃ upstream message sent, decode? source = some upstream ∧
      decode? reply.bytes = some message ∧ message.answers.map Entry.record? =
        sent.map some ∧
      List.Forall₂ WireRecord.Relays
        (upstream.answers.filterMap Entry.record?) sent := by
  obtain ⟨received, response, hreceived, hparse, -, -, hverdict⟩ :=
    judge_settled haccepted
  cases hreceived
  obtain ⟨upstream, hdecode, -, rfl⟩ := Response.parse_eq_ok hparse
  obtain ⟨-, rfl⟩ := Response.verdict_settled hverdict
  obtain ⟨wires, hwires, hread⟩ :=
    decode?_reply hasks (reply_of_handed hasks hreply) hclear
  have hregular := decode?_regular hdecode
  obtain ⟨message, hmessage, hanswers⟩ :=
    hread (Record.received_all hregular hwires).1
  obtain ⟨sent, hsent, hrelays⟩ := Record.relays_all hregular hwires
  refine ⟨upstream, message, sent, hdecode, hmessage, ?_, hrelays⟩
  rw [hanswers, hsent]

def textQuery : Inbound where
  bytes :=
    [ 0, 7, 1, 0, 0, 1, 0, 0, 0, 0, 0, 0
    , 7, 0x65, 0x78, 0x61, 0x6d, 0x70, 0x6c, 0x65, 3, 0x63, 0x6f, 0x6d, 0,
      0, 16, 0, 1 ]
  responder := ⟨.v4 ⟨192, 0, 2, 7⟩ 5353, .tcp, 0⟩

def textServer : Server :=
  ⟨.create 4, true, 1232, [], true, 0, [], []⟩

def textContext : QueryContext where
  id := 7
  opcode? := some query
  inquiry? := some
    ⟨[[0x65, 0x78, 0x61, 0x6d, 0x70, 0x6c, 0x65], [0x63, 0x6f, 0x6d]],
    16, internet⟩
  recursionDesired := true
  maxResponseSize := 65535
  responder? := some textQuery.responder

/-- A response with one string, whose byte encodes no text. -/
def brokenResponse : Octets :=
  [ 0, 0, 0x81, 0x80, 0, 1, 0, 1, 0, 0, 0, 0
  , 7, 0x65, 0x78, 0x61, 0x6d, 0x70, 0x6c, 0x65, 3, 0x63, 0x6f, 0x6d,
    0, 0, 16, 0, 1
  , 0xc0, 12, 0, 16, 0, 1, 0, 0, 1, 0x2c, 0, 2, 1, 0xff ]

def brokenAnswer : Answer :=
  ⟨.ok, 0, ⟨.txt, .name "example.com"⟩,
    [⟨"example.com", 300, .txt [String.ofList [Char.ofNat 0xFFFD]]⟩], 300⟩

def markedReply : SentReply where
  responder := textQuery.responder
  bytes :=
    [ 0, 7, 0x81, 0x80, 0, 1, 0, 1, 0, 0, 0, 0
    , 7, 0x65, 0x78, 0x61, 0x6d, 0x70, 0x6c, 0x65, 3, 0x63, 0x6f, 0x6d,
      0, 0, 16, 0, 1
    , 0xc0, 12, 0, 16, 0, 1, 0, 0, 1, 0x2c, 0, 4, 3, 0xef, 0xbf, 0xbd ]

theorem textQuery_asks :
    textQuery.Asks textServer brokenAnswer.question textContext := by
  obtain ⟨request, hdecode, hquestion, hfill⟩ : ∃ request,
      decode? textQuery.bytes = some request ∧
      Server.question request = .ok
        (⟨[[0x65, 0x78, 0x61, 0x6d, 0x70, 0x6c, 0x65], [0x63, 0x6f, 0x6d]],
        16, internet⟩, brokenAnswer.question) ∧
      textServer.fill {} request
        ⟨[[0x65, 0x78, 0x61, 0x6d, 0x70, 0x6c, 0x65], [0x63, 0x6f, 0x6d]],
        16, internet⟩
        textQuery.responder = textContext :=
    ⟨(decode? textQuery.bytes).get (by decide +kernel), by simp,
      by decide +kernel, by decide +kernel⟩
  exact ⟨request, _, hdecode, hquestion, hfill.symm⟩

theorem broken_text_is_relayed :
    judge brokenAnswer.question 0 .udp 300 (.ok brokenResponse) =
      .settled brokenAnswer ∧
      textQuery.Asks textServer brokenAnswer.question textContext ∧
      (textServer.conclude textContext brokenAnswer).1.handed =
        textServer.handed ++ [markedReply] ∧
      truncatedBit markedReply.bytes = false ∧
      ∃ upstream message sent, decode? brokenResponse = some upstream ∧
        decode? markedReply.bytes = some message ∧
        message.answers.map Entry.record? = sent.map some ∧
        List.Forall₂ WireRecord.Relays
          (upstream.answers.filterMap Entry.record?) sent := by
  have haccepted :
      judge brokenAnswer.question 0 .udp 300 (.ok brokenResponse) =
        .settled brokenAnswer := by
    decide +kernel
  have hreply : (textServer.conclude textContext brokenAnswer).1.handed =
      textServer.handed ++ [markedReply] := by
    decide +kernel
  have hclear : truncatedBit markedReply.bytes = false := by decide
  exact ⟨haccepted, textQuery_asks, hreply, hclear,
    records_are_relayed haccepted textQuery_asks hreply hclear⟩

/-- The byte that encodes no text does not arrive; the mark in its place
does. -/
theorem broken_text_is_replaced :
    judge brokenAnswer.question 0 .udp 300 (.ok brokenResponse) =
      .settled brokenAnswer ∧
      textQuery.Asks textServer brokenAnswer.question textContext ∧
      (textServer.conclude textContext brokenAnswer).1.handed =
        textServer.handed ++ [markedReply] ∧
      truncatedBit markedReply.bytes = false ∧
      (decode? brokenResponse).map (fun message =>
        message.answers.map Entry.data) =
        some [some (.txt [[0xff]])] ∧
      (decode? markedReply.bytes).map (fun message =>
        message.answers.map Entry.data) =
        some [some (.txt [[0xef, 0xbf, 0xbd]])] := by
  refine ⟨?_, textQuery_asks, ?_, ?_, ?_, ?_⟩ <;> decide +kernel

end Server

end DnsForwarder
