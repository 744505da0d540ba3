import DnsForwarder.Proofs.Message.Extent
import DnsForwarder.Proofs.Server.Journal

/-! How long replies are, and which records they carry. A reply that carries no
record is shorter than any limit, so that a reply that is too long can be cut to
one that is not. -/

namespace DnsForwarder

open Message

def Inbound.limit (inbound : Inbound) (maxUdpPayload : UInt16) : Nat :=
  match inbound.responder.protocol with
  | .tcp => 65535
  | .udp =>
      let payload :=
        match (decode? inbound.bytes).bind Message.extension? with
        | none => 512
        | some extension => extension.payload.toNat
      max 512 (min payload maxUdpPayload.toNat)

namespace Message

/-- A message carries the first of some records, in their order, and says
whether these are all. -/
def Carries (bytes : Octets) (wires : List WireRecord) (count : Nat) : Prop :=
  count ≤ wires.length ∧ ∃ message, decode? bytes = some message ∧
    message.answers = (wires.take count).map carried ∧
    message.header.truncated = decide (count < wires.length)

theorem length_layInquiry_le {inquiry : Inquiry}
    (hspan : inquiry.name.span + 1 ≤ Labels.maxLength) (table : Table)
    (offset : Nat) :
    (layPieces table offset (inquiryPieces inquiry)).bytes.length ≤ 259 := by
  have hname :=
    length_writeLabels_le (offset + inquiry.name.span) inquiry.name table offset
  simp only [Labels.maxLength] at hspan
  simp only [inquiryPieces, layPieces, layPiece, List.flatten_cons,
    List.flatten_nil, List.length_append, length_wordBytes, List.length_nil]
  omega

theorem length_encode_bare_le {header : Header} {inquiry? : Option Inquiry}
    {bytes : Octets}
    (hspan : ∀ inquiry ∈ inquiry?, inquiry.name.span + 1 ≤ Labels.maxLength)
    (hencode : encode header inquiry?.toList [] = .ok bytes) :
    bytes.length ≤ 512 := by
  obtain ⟨inquiries, hinquiries, hencode⟩ := bind_eq_ok.mp hencode
  cases hencode
  have hstart : headerSize ≤ maxSize := by decide
  have hasked :=
    writePieces_bounds [] hstart (inquiry?.toList.flatMap inquiryPieces)
  rw [hinquiries] at hasked
  obtain ⟨rfl, -⟩ := hasked
  have hlength :
      (layPieces [] headerSize
        (inquiry?.toList.flatMap inquiryPieces)).bytes.length ≤
      259 := by
    cases inquiry? with
    | none => exact Nat.zero_le _
    | some inquiry =>
        have hsole : (some inquiry).toList.flatMap inquiryPieces =
            inquiryPieces inquiry := by
          simp
        rw [hsole]
        exact length_layInquiry_le (hspan inquiry rfl) [] headerSize
  simp only [List.length_append, List.length_nil]
  simp only [length_wordBytes, countBytes, flagBytes, List.length_cons,
    List.length_nil]
  omega

end Message

namespace Inbound

variable {inbound : Inbound} {server : Server} {question : Question}
  {context : QueryContext}

theorem le_limit (inbound : Inbound) (maxUdpPayload : UInt16) :
    512 ≤ inbound.limit maxUdpPayload := by
  unfold limit
  split
  next => decide
  next => exact Nat.le_max_left _ _

theorem Asks.maxResponseSize (hasks : inbound.Asks server question context) :
    context.maxResponseSize = inbound.limit server.maxUdpPayload := by
  obtain ⟨request, inquiry, hdecode, -, rfl⟩ := hasks
  rw [Server.fill, limit, hdecode]
  simp only [Server.responseLimit, Option.bind_some]
  cases inbound.responder.protocol with
  | tcp => rfl
  | udp =>
      simp only
      cases request.extension? with
      | none =>
          simp only [Server.plainUdpPayload]
          omega
      | some extension => exact Nat.max_comm _ _

theorem Asks.span_le (hasks : inbound.Asks server question context) :
    ∀ inquiry ∈ context.inquiry?, inquiry.name.span + 1 ≤ Labels.maxLength := by
  obtain ⟨request, inquiry, hdecode, hquestion, rfl⟩ := hasks
  have hshort := decode?_short hdecode
  rw [Server.question_eq_ok hquestion] at hshort
  intro other hother
  cases hother
  exact hshort inquiry List.mem_cons_self

theorem Asks.isValid (hasks : inbound.Asks server question context) :
    ∀ inquiry ∈ context.inquiry?.toList, inquiry.name.isValid := by
  obtain ⟨request, inquiry, hdecode, hquestion, rfl⟩ := hasks
  have hvalid := decode?_isValid hdecode
  rwa [Server.question_eq_ok hquestion] at hvalid

end Inbound

namespace Server

variable {inbound : Inbound} {server : Server} {question : Question}
  {context : QueryContext} {answer : Answer} {bytes : Octets}

/-- The reply with all records of an answer, as it is when nothing limits a
message. -/
def wholeReply (server : Server) (context : QueryContext) (answer : Answer)
    (wires : List WireRecord) : Layout :=
  layMessage (Message.replyHeader (server.replyHeader context false)
      (rcodeOf answer.status)) context.inquiry?.toList wires

theorem carries_nothing (hasks : inbound.Asks server question context)
    {wires : List WireRecord} (hwires : wires ≠ [])
    (hreply : buildResponse (server.replyHeader context true) context.inquiry?
      (rcodeOf answer.status) [] = .ok bytes) :
    bytes.length ≤ 512 ∧ Carries bytes wires 0 := by
  obtain ⟨none, hnone, hencode⟩ := buildResponse_eq_ok hreply
  obtain rfl : none = [] := (Except.ok.inj hnone).symm
  refine ⟨length_encode_bare_le hasks.span_le hencode, Nat.zero_le _, ?_⟩
  obtain ⟨count, hcount, hdecode⟩ :=
    decode?_encode_carried hasks.isValid (by simp) hencode
  refine ⟨_, hdecode, ?_, ?_⟩
  · rw [List.take_nil]
    rfl
  · rw [decide_eq_true (List.length_pos_iff.mpr hwires)]
    rfl

/-- The reply is whole just when the client takes it and the encoder can write
it. -/
theorem replyBytes_carries (hasks : inbound.Asks server question context)
    (hreply : server.replyBytes context answer = .ok bytes) :
    bytes.length ≤ context.maxResponseSize ∧
    ∃ wires count, answer.records.mapM Record.toWire = .ok wires ∧
    Carries bytes wires count ∧
      let whole := server.wholeReply context answer wires
      whole.reach ≤ whole.bytes.length + 253 ∧
      (count = wires.length ↔
        whole.bytes.length ≤ context.maxResponseSize ∧ whole.reach ≤ maxSize) ∧
      (count = wires.length → bytes = whole.bytes) := by
  have hlimit := inbound.le_limit server.maxUdpPayload
  rw [← hasks.maxResponseSize] at hlimit
  obtain ⟨first, hfirst, hchoice⟩ := bind_eq_ok.mp hreply
  obtain ⟨wires, hwires, hencode⟩ := buildResponse_eq_ok hfirst
  have hwires : answer.records.mapM Record.toWire = .ok wires := hwires
  have hnamed := Record.toWire_all_named hwires
  have hspread := layMessage_reach_le
    (Message.replyHeader (server.replyHeader context false)
      (rcodeOf answer.status)) hasks.isValid
    hnamed
  obtain ⟨-, hbounds⟩ := encode_bounds hencode
  split at hchoice
  next hshort =>
    cases hchoice
    refine ⟨hshort, wires, ?_⟩
    obtain ⟨count, hcount, hdecode⟩ :=
      decode?_encode_carried hasks.isValid hnamed hencode
    have hcarries : Carries bytes wires count := ⟨hcount, _, hdecode, rfl, rfl⟩
    -- The mark in the bytes tells whether the layout went too far.
    have hmark : decide (count < wires.length) = truncatedBit bytes :=
      decode?_truncated hdecode
    refine ⟨count, hwires, hcarries, hspread, ?_⟩
    rcases hbounds with ⟨hreach, rfl⟩ | ⟨hbeyond, hcut⟩
    · have hclear :
          truncatedBit (server.wholeReply context answer wires).bytes =
          false := by
        simp only [wholeReply, layMessage, List.append_assoc]
        exact truncatedBit_flags _ _
      have hall : count = wires.length :=
        Nat.le_antisymm hcount
          (Nat.not_lt.mp (of_decide_eq_false (hmark.trans hclear)))
      exact ⟨⟨fun _ => ⟨hshort, hreach⟩, fun _ => hall⟩, fun _ => rfl⟩
    · have hless : count < wires.length := of_decide_eq_true (hmark.trans hcut)
      refine ⟨⟨fun hall => absurd hall (Nat.ne_of_lt hless), ?_⟩,
        fun hall => absurd hall (Nat.ne_of_lt hless)⟩
      rintro ⟨-, hreach⟩
      exact absurd hbeyond (Nat.not_lt.mpr hreach)
  next hlong =>
    have hsome : wires ≠ [] := by
      rintro rfl
      exact hlong
        (Nat.le_trans (length_encode_bare_le hasks.span_le hencode) hlimit)
    obtain ⟨hbare, hcarries⟩ := carries_nothing hasks hsome hchoice
    have hpos : (0 : Nat) ≠ wires.length :=
      Ne.symm (mt List.length_eq_zero_iff.mp hsome)
    refine ⟨Nat.le_trans hbare hlimit, wires, 0, hwires, hcarries, hspread, ?_⟩
    refine ⟨⟨fun hall => absurd hall hpos, ?_⟩, fun hall => absurd hall hpos⟩
    rintro ⟨hwhole, hreach⟩
    rcases hbounds with ⟨-, rfl⟩ | ⟨hbeyond, -⟩
    · exact absurd hwhole hlong
    · exact absurd hbeyond (Nat.not_lt.mpr hreach)

end Server

theorem Inbound.Meets.length_le {inbound : Inbound} {server : Server}
    {reply : SentReply} (hmeets : inbound.Meets server (.replied reply)) :
    reply.bytes.length ≤ inbound.limit server.maxUdpPayload := by
  have hlimit := inbound.le_limit server.maxUdpPayload
  cases hmeets with
  | @malformed id hdecode hid =>
      have hlength : (malformedReply id).length = 12 := rfl
      simp only [hlength]
      omega
  | rejected hdecode hbuild =>
      refine Nat.le_trans
        (length_encode_bare_le ?_ (encoded_eq_ok hbuild)) hlimit
      intro inquiry hinquiry
      exact decode?_short hdecode inquiry (List.mem_of_head? hinquiry)
  | answered hasks hreply hreadable =>
      rw [← hasks.maxResponseSize]
      exact (Server.replyBytes_carries hasks hreply).1

/-- In every run of a server, a reply goes to bytes that were received and is no
longer than their sender takes. The reply to a question carries the first
records of the answer in their order, and is marked just when some are missing.
It is complete just when the encoding of the complete reply is no longer than
the client takes and each name of it, written in full as it is before a pointer
shortens it, ends within the longest message; for this it is enough that the
encoding is by the length of a name shorter than that. -/
theorem Service.replies_keep_to_limits {κ γ : Type} [DecidableEq κ]
    (settings : Settings) (ids : Nat → UInt16) (server : Server)
    (turns : List (Turn κ γ)) :
    let service := Service.run settings ids server turns
    let journal := Journal.run settings ids server turns
    service.server.handed =
      server.handed ++ journal.closed.filterMap (fun closed =>
        closed.2.reply?) ∧
    (∀ number reply, (number, Fate.replied reply) ∈ journal.closed →
      ∃ inbound : Inbound, (turns.filterMap Turn.inbound?)[number]? =
      some inbound ∧ inbound.Meets server (.replied reply) ∧
        reply.bytes.length ≤ inbound.limit server.maxUdpPayload) ∧
    ∀ (inbound : Inbound) (question : Question) (context : QueryContext)
    (answer : Answer) (bytes : Octets), inbound.Asks server question context →
      server.replyBytes context answer = .ok bytes →
        ∃ wires count, answer.records.mapM Record.toWire = .ok wires ∧
          Carries bytes wires count ∧
          let whole := server.wholeReply context answer wires
          whole.reach ≤ whole.bytes.length + 253 ∧
          (count = wires.length ↔
            whole.bytes.length ≤ inbound.limit server.maxUdpPayload ∧
            whole.reach ≤ 65535) ∧
          (count = wires.length → bytes = whole.bytes) := by
  intro service journal
  have haccounted := Journal.run_accounted settings ids server turns
  have hmirrors := Journal.run_mirrors settings ids server turns
  refine ⟨hmirrors.server ▸ haccounted.faithful.handed, ?_, ?_⟩
  · intro number reply hclosed
    obtain ⟨inbound, hinbound, hmeets⟩ :=
      haccounted.meets _ (Journal.mem_fates.mpr (.inr (.inr hclosed)))
    rw [Journal.run_inbound] at hinbound
    exact ⟨inbound, hinbound, hmeets, hmeets.length_le⟩
  · intro inbound question context answer bytes hasks hreply
    rw [← hasks.maxResponseSize]
    exact (Server.replyBytes_carries hasks hreply).2

section Shortened

/-! Many records with one name, of which all but the first are written with a
pointer. -/

def capitals : Labels := [List.replicate 59 0x41]

def smallLetters : Labels := [List.replicate 59 0x61]

/-- A query over TCP whose name is in capitals, so that no name of the answer
points to it. -/
def capitalQuery : Inbound where
  bytes := [0, 7, 1, 0, 0, 1, 0, 0, 0, 0, 0, 0, 59] ++ List.replicate 59 0x41 ++
    [0, 0, 1, 0, 1]
  responder := ⟨.v4 ⟨192, 0, 2, 7⟩ 5353, .tcp, 0⟩

def capitalServer : Server :=
  ⟨.create 4, true, 1232, [], true, 0, [], []⟩

def capitalContext : QueryContext where
  id := 7
  opcode? := some query
  inquiry? := some ⟨capitals, 1, internet⟩
  recursionDesired := true
  maxResponseSize := 65535
  responder? := some capitalQuery.responder

def repeatedName : String :=
  "aaaaaaaaaaaaaaaaaaaaaaaaaaaaaaaaaaaaaaaaaaaaaaaaaaaaaaaaaaa"

def repeatedAnswer : Answer where
  status := .ok
  rcode := 0
  question := ⟨.a, .name repeatedName⟩
  records := List.replicate 4087 ⟨repeatedName, 300, .a ⟨192, 0, 2, 1⟩⟩
  ttl := 300

def repeatedWire : WireRecord :=
  ⟨smallLetters, 300, .a ⟨192, 0, 2, 1⟩⟩

theorem capitalQuery_asks :
    capitalQuery.Asks capitalServer repeatedAnswer.question capitalContext := by
  obtain ⟨request, hdecode, hquestion, hfill⟩ : ∃ request,
      decode? capitalQuery.bytes = some request ∧
      Server.question request =
      .ok (⟨capitals, 1, internet⟩, repeatedAnswer.question) ∧
      capitalServer.fill {} request ⟨capitals, 1, internet⟩
      capitalQuery.responder = capitalContext :=
    ⟨(decode? capitalQuery.bytes).get (by decide +kernel), by simp,
      by decide +kernel, by decide +kernel⟩
  exact ⟨request, _, hdecode, hquestion, hfill.symm⟩

def repeatedTable : Table :=
  [(smallLetters, 77), (capitals, 12)]

theorem layRecord_repeated (offset : Nat) :
    let laid := layRecord repeatedTable offset repeatedWire
    laid.bytes.length = 16 ∧ laid.table = repeatedTable ∧
    offset + 60 ≤ laid.reach := by
  have hlookup : repeatedTable.lookup smallLetters = some 77 :=
    by decide +kernel
  have hname : layPiece repeatedTable offset (.name smallLetters) =
      ⟨pointerBytes 77, repeatedTable, max (offset + 60) (offset + 2)⟩ := by
    simp only [layPiece]
    rw [smallLetters, writeLabels, ← smallLetters, hlookup]
    rfl
  refine ⟨?_, ?_, ?_⟩
  · rw [length_layRecord]
    simp only [headPieces, layPieces, repeatedWire, hname]
    rfl
  · simp only [layRecord, headPieces, layPieces, repeatedWire, hname]
    rfl
  · simp only [layRecord, headPieces, layPieces, repeatedWire, hname]
    omega

theorem layRecords_repeated (offset count : Nat) :
    let laid :=
      layRecords repeatedTable offset (List.replicate (count + 1) repeatedWire)
    laid.bytes.length = 16 * (count + 1) ∧ offset + 16 * count + 60 ≤
    laid.reach := by
  induction count generalizing offset with
  | zero =>
      obtain ⟨hlength, -, hreach⟩ := layRecord_repeated offset
      refine ⟨?_, ?_⟩
      · simp [layRecords, hlength]
      · exact Nat.le_trans hreach (Nat.le_max_left _ _)
  | succ count ih =>
      obtain ⟨hlength, htable, -⟩ := layRecord_repeated offset
      obtain ⟨hrest, hreach⟩ := ih (offset + 16)
      rw [List.replicate_succ]
      simp only [layRecords, hlength, htable, List.length_append]
        at hrest hreach ⊢
      omega

theorem repeated_toWire (count : Nat) :
    (List.replicate count
      (⟨repeatedName, 300, .a ⟨192, 0, 2, 1⟩⟩ : Record)).mapM Record.toWire =
      .ok (List.replicate count repeatedWire) := by
  have hwire : Record.toWire ⟨repeatedName, 300, .a ⟨192, 0, 2, 1⟩⟩ =
      .ok repeatedWire := by
    decide +kernel
  induction count with
  | zero => rfl
  | succ count ih =>
      rw [List.replicate_succ, List.mapM_cons, hwire, ih]
      rfl

theorem wholeReply_repeated (count : Nat) :
    let whole := capitalServer.wholeReply capitalContext repeatedAnswer
      (List.replicate (count + 2) repeatedWire)
    whole.bytes.length = 152 + 16 * (count + 1) ∧ 152 + 16 * count + 60 ≤
    whole.reach := by
  let inquiries :=
    layPieces [] headerSize
      (capitalContext.inquiry?.toList.flatMap inquiryPieces)
  have hfirst : inquiries.bytes.length = 65 ∧
      (layRecord inquiries.table 77 repeatedWire).bytes.length = 75 ∧
      (layRecord inquiries.table 77 repeatedWire).table = repeatedTable := by
    decide +kernel
  obtain ⟨hasked, hlength, htable⟩ := hfirst
  obtain ⟨hrest, hreach⟩ := layRecords_repeated 152 count
  have hbody :
      let body :=
        layRecords inquiries.table (headerSize + inquiries.bytes.length)
        (List.replicate (count + 2) repeatedWire)
      body.bytes.length = 75 + 16 * (count + 1) ∧ 152 + 16 * count + 60 ≤
      body.reach := by
    rw [hasked, List.replicate_succ]
    simp only [headerSize, layRecords, List.length_append, hlength,
      htable, hrest]
    exact ⟨trivial, Nat.le_trans hreach (Nat.le_max_right _ _)⟩
  refine ⟨?_, Nat.le_trans hbody.2 (Nat.le_max_right _ _)⟩
  refine (length_layMessage _ _ _).trans ?_
  have hhead : headerSize + inquiries.bytes.length = 77 := by rw [hasked]; rfl
  rw [hbody.1, hhead]
  omega

/-- The encoding of the complete reply is no longer than the client takes, and
its last record is left out all the same: its name would end too far behind if
it were not shortened. -/
theorem Server.names_in_full_cut_a_short_reply :
    let wires := List.replicate 4087 repeatedWire
    let whole := capitalServer.wholeReply capitalContext repeatedAnswer wires
    capitalQuery.Asks capitalServer repeatedAnswer.question capitalContext ∧
    repeatedAnswer.records.mapM Record.toWire = .ok wires ∧
    whole.bytes.length = 65528 ∧
    capitalQuery.limit capitalServer.maxUdpPayload = 65535 ∧
    ∃ bytes count, capitalServer.replyBytes capitalContext repeatedAnswer =
    .ok bytes ∧ Carries bytes wires count ∧ count < wires.length := by
  intro wires whole
  have hwires : repeatedAnswer.records.mapM Record.toWire = .ok wires :=
    repeated_toWire 4087
  obtain ⟨hlength, hreach⟩ := wholeReply_repeated 4085
  refine ⟨capitalQuery_asks, hwires, hlength, rfl, ?_⟩
  cases hreply : capitalServer.replyBytes capitalContext repeatedAnswer with
  | error error =>
      obtain ⟨record, hrecord, hunsendable⟩ :=
        Server.replyBytes_error capitalQuery_asks.span_le hreply
      obtain rfl := List.eq_of_mem_replicate hrecord
      exact absurd ⟨repeatedWire, by decide +kernel, nofun⟩ hunsendable
  | ok bytes =>
      obtain ⟨hshort, others, count, hothers, hcarries, -, hwhole, -⟩ :=
        Server.replyBytes_carries capitalQuery_asks hreply
      obtain rfl : wires = others := Except.ok.inj (hwires.symm.trans hothers)
      refine ⟨bytes, count, rfl, hcarries, ?_⟩
      have hmissing : count ≠ wires.length := by
        intro hall
        exact absurd (hwhole.mp hall).2
          (Nat.not_le.mpr (Nat.lt_of_lt_of_le (by decide) hreach))
      exact Nat.lt_of_le_of_ne hcarries.1 hmissing

end Shortened

end DnsForwarder
