import DnsForwarder.Proofs.Message.Decoding
import DnsForwarder.Proofs.Message.Replies

/-! How a server closes a request: with one reply that goes back where the
request came from, or, when the answer to it has a record that no message can
carry, with an error and no reply. -/

namespace DnsForwarder

structure Inbound where
  bytes : Octets
  responder : Responder

inductive Fate where
  | waiting (question : Question) (context : QueryContext)
  | due (answer : Answer) (context : QueryContext)
  | replied (reply : SentReply)
  | lost (error : Error)
  deriving DecidableEq

namespace Fate

def reply? : Fate → Option SentReply
  | .replied reply => some reply
  | _ => none

def isFinal : Fate → Bool
  | .replied _ | .lost _ => true
  | .waiting _ _ | .due _ _ => false

end Fate

/-- The reply to bytes that are no message, when they have an id. -/
def malformedReply (id : UInt16) : Octets :=
  wordBytes id ++ [0x80, 0x01, 0, 0, 0, 0, 0, 0, 0, 0]

namespace Inbound

/-- The bytes are a request for the answer to a question, and the context is
what its reply needs. -/
def Asks (server : Server) (inbound : Inbound) (question : Question)
    (context : QueryContext) :
    Prop :=
  ∃ request inquiry, Message.decode? inbound.bytes = some request ∧
    Server.question request = .ok (inquiry, question) ∧
      context = server.fill {} request inquiry inbound.responder

/-- The fates that bytes can meet. A request without a reply has got an answer
with a record that no message can carry. -/
inductive Meets (server : Server) (inbound : Inbound) : Fate → Prop
  | waiting {question : Question} {context : QueryContext}
      (hasks : inbound.Asks server question context) :
      Meets server inbound (.waiting question context)
  | due {answer : Answer} {context : QueryContext}
      (hasks : inbound.Asks server answer.question context) :
      Meets server inbound (.due answer context)
  | malformed {id : UInt16} (hdecode : Message.decode? inbound.bytes = none)
      (hid : Server.idOf? inbound.bytes = some id) :
      Meets server inbound (.replied ⟨inbound.responder, malformedReply id⟩)
  | rejected {request : Message} {rcode : Message.Rcode} {bytes : Octets}
      (hdecode : Message.decode? inbound.bytes = some request)
      (hbuild : Message.buildError request.header.id request.header.opcode
        request.questions.head? rcode = .ok bytes) :
      Meets server inbound (.replied ⟨inbound.responder, bytes⟩)
  | answered {answer : Answer} {context : QueryContext} {bytes : Octets}
      (hasks : inbound.Asks server answer.question context)
      (hreply : server.replyBytes context answer = .ok bytes)
      (hreadable : ∀ record ∈ answer.records, ∃ wire,
      record.toWire = .ok wire) :
      Meets server inbound (.replied ⟨inbound.responder, bytes⟩)
  | lost {answer : Answer} {context : QueryContext} {error : Error}
      (hasks : inbound.Asks server answer.question context)
      (hreply : server.replyBytes context answer = .error error)
      (hrecord : ∃ record ∈ answer.records, ¬record.Sendable) :
      Meets server inbound (.lost error)

end Inbound

namespace Server

open Message

structure Alike (before after : Server) : Prop where
  recursionAvailable : after.recursionAvailable = before.recursionAvailable
  maxUdpPayload : after.maxUdpPayload = before.maxUdpPayload

/-- One reply was handed out, or none because of an error. -/
def Closes (before after : Server) (result : Except Error Unit) : Fate → Prop
  | .replied reply => after.handed = before.handed ++ [reply]
  | .lost error => after.handed = before.handed ∧ result = .error error
  | .waiting _ _ | .due _ _ => False

def closings (before after : Server) (result : Except Error Unit) : List Fate :=
  match after.handed.drop before.handed.length with
  | [] =>
      match result with
      | .ok () => []
      | .error error => [.lost error]
  | replies => replies.map .replied

theorem Alike.trans {first second third : Server} (hfirst : first.Alike second)
    (hsecond : second.Alike third) : first.Alike third where
  recursionAvailable :=
    hsecond.recursionAvailable.trans hfirst.recursionAvailable
  maxUdpPayload := hsecond.maxUdpPayload.trans hfirst.maxUdpPayload

/-- How an answer closes a request: with a reply, if one can be written. -/
def closing (server : Server) (responder : Responder) (context : QueryContext)
    (answer : Answer) :
    Fate :=
  match server.replyBytes context answer with
  | .ok bytes => .replied ⟨responder, bytes⟩
  | .error error => .lost error

variable {before after server : Server} {result : Except Error Unit}
  {context : QueryContext} {answer : Answer} {responder : Responder}

theorem Closes.closings_eq {fate : Fate}
    (hcloses : before.Closes after result fate) :
    before.closings after result = [fate] := by
  cases fate with
  | waiting question context => cases hcloses
  | due answer context => cases hcloses
  | replied reply =>
      have hhanded : after.handed = before.handed ++ [reply] := hcloses
      have hnew : after.handed.drop before.handed.length = [reply] := by
        rw [hhanded, List.drop_left]
      simp [closings, hnew]
  | lost error =>
      obtain ⟨hhanded, hresult⟩ := hcloses
      have hnone : after.handed.drop before.handed.length = [] := by
        rw [hhanded, List.drop_length]
      simp [closings, hnone, hresult]

theorem Closes.congr {other : Server} {fate : Fate}
    (hcloses : before.Closes after result fate)
    (hhanded : before.handed = other.handed) :
    other.Closes after result fate := by
  cases fate with
  | waiting question context => cases hcloses
  | due answer context => cases hcloses
  | replied reply => exact hcloses.trans (congrArg (· ++ [reply]) hhanded)
  | lost error => exact ⟨hcloses.1.trans hhanded, hcloses.2⟩

theorem Closes.handed_eq {fate : Fate}
    (hcloses : before.Closes after result fate) :
    after.handed = before.handed ++ fate.reply?.toList := by
  cases fate with
  | waiting question context => cases hcloses
  | due answer context => cases hcloses
  | replied reply => exact hcloses
  | lost error => exact hcloses.1.trans (List.append_nil _).symm

theorem Closes.isFinal {fate : Fate}
    (hcloses : before.Closes after result fate) :
    fate.isFinal = true := by
  cases fate with
  | waiting question context => cases hcloses
  | due answer context => cases hcloses
  | replied reply => rfl
  | lost error => rfl

theorem closings_ok (hhanded : after.handed = before.handed) :
    before.closings after (.ok ()) = [] := by
  have hnone : after.handed.drop before.handed.length = [] := by
    rw [hhanded, List.drop_length]
  simp [closings, hnone]

theorem replyBytes_alike (halike : before.Alike after)
    (context : QueryContext) (answer : Answer) :
    after.replyBytes context answer = before.replyBytes context answer := by
  simp only [replyBytes, replyHeader, halike.recursionAvailable]

theorem fill_alike (halike : before.Alike after) (slot : QueryContext)
    (request : Message) (inquiry : Inquiry) (responder : Responder) :
    after.fill slot request inquiry responder =
      before.fill {} request inquiry responder := by
  simp only [fill, halike.maxUdpPayload]

theorem replyBytes_cases (server : Server) (context : QueryContext)
    (answer : Answer) :
    (∃ error, buildResponse (server.replyHeader context false) context.inquiry?
        (rcodeOf answer.status) answer.records = .error error ∧
      server.replyBytes context answer = .error error) ∨
    (∃ whole, buildResponse (server.replyHeader context false) context.inquiry?
        (rcodeOf answer.status) answer.records = .ok whole ∧
      (server.replyBytes context answer = .ok whole ∨
        server.replyBytes context answer =
          buildResponse (server.replyHeader context true) context.inquiry?
            (rcodeOf answer.status) [])) := by
  cases hwhole : buildResponse (server.replyHeader context false)
    context.inquiry? (rcodeOf answer.status) answer.records with
  | error error =>
      refine .inl ⟨error, rfl, ?_⟩
      simp only [replyBytes, hwhole, bind, Except.bind]
  | ok whole =>
      refine .inr ⟨whole, rfl, ?_⟩
      simp only [replyBytes, hwhole, bind, Except.bind]
      split
      next => exact .inl rfl
      next => exact .inr rfl

theorem replyBytes_id {bytes : Octets}
    (hreply : server.replyBytes context answer = .ok bytes) :
    idOf? bytes = some context.id := by
  rcases server.replyBytes_cases context answer with
    ⟨error, -, herror⟩ | ⟨whole, hwhole, hsame⟩
  · rw [herror] at hreply
    cases hreply
  · rcases hsame with hsame | hsame
    · rw [hsame] at hreply
      cases hreply
      exact buildResponse_id hwhole
    · rw [hsame] at hreply
      exact buildResponse_id hreply

theorem replyBytes_readable {bytes : Octets}
    (hreply : server.replyBytes context answer = .ok bytes) :
    ∀ record ∈ answer.records, ∃ wire, record.toWire = .ok wire := by
  rcases server.replyBytes_cases context answer with
    ⟨error, -, herror⟩ | ⟨whole, hwhole, -⟩
  · rw [herror] at hreply
    cases hreply
  · exact buildResponse_readable hwhole rfl

theorem replyBytes_error {error : Error}
    (hspan : ∀ inquiry ∈ context.inquiry?, inquiry.name.span + 1 ≤
      Labels.maxLength)
    (hreply : server.replyBytes context answer = .error error) :
    ∃ record ∈ answer.records, ¬record.Sendable := by
  rcases server.replyBytes_cases context answer with
    ⟨first, hfirst, -⟩ | ⟨whole, -, hsame⟩
  · exact (buildResponse_error hspan hfirst).2
  · rcases hsame with hsame | hsame
    · rw [hsame] at hreply
      cases hreply
    · rw [hsame] at hreply
      cases (buildResponse_error hspan hreply).1

@[simp] theorem report_handed (server : Server) (result : Except Error Unit) :
    (server.report result).handed = server.handed := by
  unfold report
  split <;> rfl

theorem report_alike (server : Server) (result : Except Error Unit) :
    server.Alike (server.report result) := by
  unfold report
  split <;> exact ⟨rfl, rfl⟩

theorem sendError_closes (server : Server) (responder : Responder)
    (id : UInt16) (opcode : Opcode) {inquiry? : Option Inquiry}
    (rcode : Rcode)
    (hspan : ∀ inquiry ∈ inquiry?, inquiry.name.span + 1 ≤ Labels.maxLength) :
    let outcome := server.sendError responder id opcode inquiry? rcode
    ∃ bytes, buildError id opcode inquiry? rcode = .ok bytes ∧
    server.Alike outcome.1 ∧
      server.Closes outcome.1 outcome.2 (.replied ⟨responder, bytes⟩) := by
  obtain ⟨bytes, hbytes⟩ := buildError_ok id opcode rcode hspan
  refine ⟨bytes, hbytes, ?_⟩
  simp only [sendError, hbytes]
  exact ⟨⟨rfl, rfl⟩, rfl⟩

theorem conclude_closes (server : Server) (answer : Answer)
    (hresponder : context.responder? = some responder) :
    let outcome := server.conclude context answer
    server.Alike outcome.1 ∧
      server.Closes outcome.1 outcome.2
      (server.closing responder context answer) := by
  intro outcome
  -- What is released and reported leaves the replies that were handed out as
  -- they are.
  have houtcome : outcome =
      (((server.respond context answer).1.release context).report
        (server.respond context answer).2,
        (server.respond context answer).2) := rfl
  have halike :=
    report_alike ((server.respond context answer).1.release context)
    (server.respond context answer).2
  rw [houtcome, closing]
  cases hreply : server.replyBytes context answer with
  | ok bytes =>
      have hrespond : server.respond context answer =
          server.send responder bytes := by
        simp only [respond, hresponder, hreply]
      rw [hrespond] at halike ⊢
      refine ⟨⟨halike.recursionAvailable, halike.maxUdpPayload⟩, ?_⟩
      exact report_handed _ _
  | error error =>
      have hrespond : server.respond context answer =
          (server, .error error) := by
        simp only [respond, hresponder, hreply]
      rw [hrespond] at halike ⊢
      refine ⟨⟨halike.recursionAvailable, halike.maxUdpPayload⟩, ?_, rfl⟩
      exact report_handed _ _

theorem question_eq_ok_iff {request : Message} {inquiry : Inquiry}
    {question : Question} :
    Server.question request = .ok (inquiry, question) ↔
      request.header.opcode = query ∧ request.questions = [inquiry] ∧
        ∃ type, RecordType.ofCode? inquiry.typeCode = some type ∧
          Question.ofText type (String.ofList (DomainName.text inquiry.name)) =
            .ok question := by
  constructor
  · intro hquestion
    unfold Server.question at hquestion
    split at hquestion
    next => cases hquestion
    next hopcode =>
      split at hquestion
      next sole hsole =>
        split at hquestion
        next => cases hquestion
        next type htype =>
          split at hquestion
          next => cases hquestion
          next hread =>
            cases hquestion
            exact ⟨Decidable.not_not.mp hopcode, hsole, type, htype, hread⟩
      next => cases hquestion
  · rintro ⟨hopcode, hsole, type, htype, hread⟩
    simp [Server.question, hopcode, hsole, htype, hread]

theorem question_eq_ok {request : Message} {inquiry : Inquiry}
    {question : Question}
    (hquestion : Server.question request = .ok (inquiry, question)) :
    request.questions = [inquiry] :=
  (question_eq_ok_iff.mp hquestion).2.1

end Server

namespace Inbound

open Server

variable {before server : Server} {inbound : Inbound}

theorem Asks.alike {question : Question} {context : QueryContext}
    (hasks : inbound.Asks server question context)
    (halike : before.Alike server) :
    inbound.Asks before question context := by
  obtain ⟨request, inquiry, hdecode, hquestion, hcontext⟩ := hasks
  exact ⟨request, inquiry, hdecode, hquestion,
    hcontext.trans (fill_alike halike _ _ _ _)⟩

theorem Meets.alike {fate : Fate} (hmeets : inbound.Meets server fate)
    (halike : before.Alike server) : inbound.Meets before fate := by
  cases hmeets with
  | waiting hasks => exact .waiting (hasks.alike halike)
  | due hasks => exact .due (hasks.alike halike)
  | malformed hdecode hid => exact .malformed hdecode hid
  | rejected hdecode hbuild => exact .rejected hdecode hbuild
  | answered hasks hreply hreadable =>
      rw [replyBytes_alike halike] at hreply
      exact .answered (hasks.alike halike) hreply hreadable
  | lost hasks hreply hrecord =>
      rw [replyBytes_alike halike] at hreply
      exact .lost (hasks.alike halike) hreply hrecord

theorem Meets.reply {reply : SentReply}
    (hmeets : inbound.Meets server (.replied reply)) :
    reply.responder = inbound.responder ∧
      idOf? reply.bytes = idOf? inbound.bytes := by
  cases hmeets with
  | malformed hdecode hid =>
      refine ⟨rfl, ?_⟩
      rw [hid]
      exact congrArg some (wordOfBytes_wordBytes _)
  | rejected hdecode hbuild =>
      refine ⟨rfl, ?_⟩
      rw [Message.decode?_id hdecode]
      exact Message.buildError_id hbuild
  | answered hasks hreply hreadable =>
      obtain ⟨request, inquiry, hdecode, -, rfl⟩ := hasks
      refine ⟨rfl, ?_⟩
      rw [Message.decode?_id hdecode]
      exact replyBytes_id hreply

theorem Meets.malformed_eq {fate : Fate} {id : UInt16}
    (hmeets : inbound.Meets server fate)
    (hdecode : Message.decode? inbound.bytes = none)
    (hid : idOf? inbound.bytes = some id) :
    fate = .replied ⟨inbound.responder, malformedReply id⟩ := by
  have hasks {question : Question} {context : QueryContext} :
      ¬inbound.Asks server question context := by
    rintro ⟨request, inquiry, hrequest, -⟩
    rw [hdecode] at hrequest
    cases hrequest
  cases hmeets with
  | waiting hother => exact absurd hother hasks
  | due hother => exact absurd hother hasks
  | malformed hdecode hsame =>
      rw [hid] at hsame
      cases hsame
      rfl
  | rejected hrequest hbuild =>
      rw [hdecode] at hrequest
      cases hrequest
  | answered hother hreply hreadable => exact absurd hother hasks
  | lost hother hreply hrecord => exact absurd hother hasks

theorem Asks.conclude {answer : Answer} {context : QueryContext}
    (hasks : inbound.Asks before answer.question context)
    (halike : before.Alike server) :
    let outcome := server.conclude context answer
    let fate := before.closing inbound.responder context answer
    server.Alike outcome.1 ∧ server.Closes outcome.1 outcome.2 fate ∧
      inbound.Meets before fate := by
  intro outcome fate
  obtain ⟨request, inquiry, hdecode, hquestion, rfl⟩ := id hasks
  have hresponder :
      (before.fill {} request inquiry inbound.responder).responder? =
      some inbound.responder := rfl
  obtain ⟨hafter, hcloses⟩ := server.conclude_closes answer hresponder
  rw [closing, replyBytes_alike halike] at hcloses
  refine ⟨hafter, hcloses, ?_⟩
  simp only [fate, closing]
  cases hreply : before.replyBytes
    (before.fill {} request inquiry inbound.responder) answer with
  | ok bytes => exact .answered hasks hreply (replyBytes_readable hreply)
  | error error =>
      refine .lost hasks hreply (replyBytes_error ?_ hreply)
      have hshort := Message.decode?_short hdecode
      rw [question_eq_ok hquestion] at hshort
      intro other hother
      cases hother
      exact hshort inquiry List.mem_cons_self

end Inbound

end DnsForwarder
