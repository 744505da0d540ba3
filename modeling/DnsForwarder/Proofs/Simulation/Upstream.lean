import DnsForwarder.Proofs.Message.Matching
import DnsForwarder.Engine.Attempt
import DnsForwarder.Simulation.NameServers

/-! Servers that answer each question by itself. The id of a query makes no
difference to them but that a reply may repeat it, and then the engine reads the
same from the reply. -/

namespace DnsForwarder

open Message

namespace Message

variable {question : Question} {id other : UInt16} {query : Octets}

theorem encode_congr (questions : List Inquiry) (answers : List WireRecord)
    (header other : Header) :
    (∃ fault, encode header questions answers = .error fault ∧
      encode other questions answers = .error fault) ∨
    ∃ inquiries body, writePieces [] headerSize
      (questions.flatMap inquiryPieces) = .ok inquiries ∧
      writeRecords inquiries.table (headerSize + inquiries.bytes.length)
        answers = .ok body := by
  cases hinquiries : writePieces [] headerSize
    (questions.flatMap inquiryPieces) with
  | error fault =>
      refine .inl ⟨fault, ?_, ?_⟩ <;>
        simp only [encode, hinquiries, bind, Except.bind]
  | ok inquiries =>
      cases hbody : writeRecords inquiries.table
        (headerSize + inquiries.bytes.length) answers with
      | error fault =>
          refine .inl ⟨fault, ?_, ?_⟩ <;>
            simp only [encode, hinquiries, hbody, bind, Except.bind]
      | ok body => exact .inr ⟨inquiries, body, rfl, hbody⟩

theorem buildQuery_congr (question : Question) (id other : UInt16) :
    (∃ error, buildQuery question id = .error error ∧
      buildQuery question other = .error error) ∨
      ∃ query sibling, buildQuery question id = .ok query ∧
        buildQuery question other = .ok sibling := by
  cases hlabels : DomainName.toLabels question.queryName with
  | error error =>
      exact .inl
        ⟨error, buildQuery_eq_error_iff.mpr hlabels,
        buildQuery_eq_error_iff.mpr hlabels⟩
  | ok labels =>
      obtain ⟨query, hquery⟩ := exists_buildQuery hlabels id
      obtain ⟨sibling, hsibling⟩ := exists_buildQuery hlabels other
      exact .inr ⟨query, sibling, hquery, hsibling⟩

end Message

section Reading

variable {question : Question} {id other : UInt16}

/-- A message as it would be if its query had had the id zero. -/
def Message.relative (message : Message) (id : UInt16) : Message :=
  { message with
    header := { message.header with id := message.header.id - id } }

/-- What an engine can read from the result of a query with this id. -/
def said (id : UInt16) : Except Error Octets → Option Message
  | .error _ => none
  | .ok bytes => (decode? bytes).map fun message => message.relative id

theorem answers_relative (message : Message) (id : UInt16)
    (question : Question) :
    (Response.ofMessage (message.relative id)).answers 0 question =
      (Response.ofMessage message).answers id question := by
  have hid : (message.header.id - id == 0) = (message.header.id == id) := by
    rw [Bool.eq_iff_iff, beq_iff_eq, beq_iff_eq]
    constructor
    · intro hzero
      rw [← UInt16.sub_add_cancel message.header.id id, hzero, UInt16.zero_add]
    · intro hsame
      rw [hsame, UInt16.sub_self]
  simp only [Response.answers, Response.ofMessage, Message.relative, hid]

def appraise (question : Question) (protocol : Protocol)
    (negativeTtl : UInt32) :
    Option Message → Verdict
  | none => .failed (.error 0)
  | some message =>
      if message.header.isResponse ∧
        (Response.ofMessage message).answers 0 question then
        if message.header.truncated ∧ protocol = .udp then .truncated
        else (Response.ofMessage message).verdict question negativeTtl
      else .failed (.error 0)

/-- The engine judges a result by what it reads relative to the id of its
query. -/
theorem judge_eq_appraise (question : Question) (id : UInt16)
    (protocol : Protocol) (negativeTtl : UInt32)
    (result : Except Error Octets) :
    judge question id protocol negativeTtl result =
      appraise question protocol negativeTtl (said id result) := by
  cases result with
  | error error => rfl
  | ok bytes =>
      simp only [judge, said, Response.parse]
      cases decode? bytes with
      | none => rfl
      | some message =>
          simp only [Option.map_some, appraise, answers_relative]
          cases hresponse : message.header.isResponse with
          | false => simp [Message.relative, hresponse]
          | true => simp [Message.relative, hresponse]; rfl

end Reading

namespace Simulation

theorem NameServers.asked_append (question : Question)
    (earlier : List Exchange) (exchange : Exchange) :
    asked question (earlier ++ [exchange]) =
      asked question earlier +
        if exchange.question = question then 1 else 0 := by
  simp only [asked, List.countP_append, List.countP_singleton,
    decide_eq_true_eq]

/-- A reply says the same to all queries for a question, relative to their
ids. -/
def Reply.Echoes (reply : Reply) (question : Question) : Prop :=
  ∀ id other query sibling, buildQuery question id = .ok query →
    buildQuery question other = .ok sibling →
      (reply.result? query).map (said id) =
      (reply.result? sibling).map (said other)

theorem echoes_hang (delay : Nat) (question : Question) :
    Reply.Echoes ⟨.hang, delay⟩ question :=
  fun _ _ _ _ _ _ => rfl

/-- A response that repeats the id of its query, shifted or not, echoes it, if
the names of the questions in it are such as can be read. -/
theorem echoes_message {questions? : Option (List Inquiry)} (rcode : Rcode)
    (truncated : Bool) (records : List Record) (idShift : UInt16)
    (isResponse : Bool) (delay : Nat) (question : Question)
    (hquestions : ∀ questions ∈ questions?, ∀ inquiry ∈ questions,
      inquiry.name.isValid) :
    Reply.Echoes
      ⟨.message rcode truncated records idShift isResponse questions?, delay⟩
      question := by
  intro id other query sibling hquery hsibling
  obtain ⟨asked, hasked, hdecode⟩ := decode?_query hquery
  obtain ⟨again, hagain, hdecodeSibling⟩ := decode?_query hsibling
  rw [hasked] at hagain
  cases hagain
  simp only [Reply.result?, hdecode, hdecodeSibling, Option.map_some, respondTo]
  congr 1
  cases hanswers : records.mapM Record.toWire with
  | error error => rfl
  | ok answers =>
      have hnamed := Record.toWire_all_named hanswers
      have hvalid :
          ∀ inquiry ∈ questions?.getD [asked], inquiry.name.isValid := by
        cases questions? with
        | some questions => exact hquestions questions rfl
        | none =>
            obtain ⟨name, hname, hinquiry⟩ := bind_eq_ok.mp hasked
            cases hinquiry
            simpa using DomainName.toLabels_isValid hname
      -- The id stands in the header only, so both responses have the same
      -- sections behind it.
      let header (id : UInt16) : Header :=
        ⟨id + idShift, isResponse, Message.query, truncated, true, true, rcode⟩
      change said id
        (encoded (encode (header id) (questions?.getD [asked]) answers)) =
        said other (encoded
          (encode (header other) (questions?.getD [asked]) answers))
      obtain ⟨fault, herror, hother⟩ | ⟨inquiries, body, hinquiries, hbody⟩ :=
        encode_congr (questions?.getD [asked]) answers (header id)
          (header other)
      · rw [herror, hother]
        rfl
      · have hwritten (id : UInt16) :=
          (decode?_of_sections hvalid hnamed hinquiries hbody (header id)).2
        obtain ⟨bytes, hbytes, hread⟩ := hwritten id
        obtain ⟨bytes', hbytes', hread'⟩ := hwritten other
        rw [hbytes, hbytes']
        simp only [encoded, said, hread, hread', Option.map_some,
          Message.relative, Header.arrived,
          header, UInt16.add_comm _ idShift, UInt16.add_sub_cancel]

end Simulation

end DnsForwarder
