import DnsForwarder.Engine.Resolve
import DnsForwarder.Server.Basic

/-! How a server handles requests: errors at once, cached answers at once, other
answers when they come. -/

namespace DnsForwarder.Server

open Message

variable {κ γ : Type}

def plainUdpPayload : Nat := 512

def maxTcpSize : Nat := 65535

def responseLimit (maxUdpPayload : UInt16) (protocol : Protocol)
    (extension? : Option Extension) : Nat :=
  match protocol with
  | .tcp => maxTcpSize
  | .udp =>
      match extension? with
      | none => plainUdpPayload
      | some extension =>
          max (min extension.payload.toNat maxUdpPayload.toNat) plainUdpPayload

/-- The one question of a request, or the code of the error that the request
gets. -/
def question (request : Message) : Except Rcode (Inquiry × Question) :=
  if request.header.opcode ≠ query then .error Rcode.notImp
  else
    match request.questions with
    | [inquiry] =>
        match RecordType.ofCode? inquiry.typeCode with
        | none => .error Rcode.notImp
        | some type =>
            match Question.ofText type
              (String.ofList (DomainName.text inquiry.name)) with
            | .error _ => .error Rcode.formErr
            | .ok question => .ok (inquiry, question)
    | _ => .error Rcode.formErr

def fill (server : Server) (slot : QueryContext) (request : Message)
    (inquiry : Inquiry) (responder : Responder) : QueryContext :=
  { slot with
    id := request.header.id
    opcode? := some request.header.opcode
    inquiry? := some inquiry
    recursionDesired := request.header.recursionDesired
    maxResponseSize :=
      responseLimit server.maxUdpPayload responder.protocol request.extension?
    responder? := some responder }

/-- Handles a request. The engine keeps the context of a query as `box` packs
it. -/
def handle (box : QueryContext → γ) (engine : Engine (Party κ) γ)
    (server : Server) (now : Nat) (request : Message) (responder : Responder) :
    Engine (Party κ) γ × Server × Except Error Unit :=
  let id := request.header.id
  let opcode := request.header.opcode
  match question request with
  | .error rcode =>
      let (server, result) :=
        server.sendError responder id opcode request.questions.head? rcode
      (engine, server, result)
  | .ok (inquiry, question) =>
      let (pool, slot) := server.pool.acquire
      let server := { server with pool }
      let context := server.fill slot request inquiry responder
      let flags : Flags := { cacheOnly := !server.recursionAvailable }
      match engine.resolve now question .server (box context) flags with
      | (engine, .ok .pending) => (engine, server, .ok ())
      | (engine, .ok (.ready answer _)) =>
          let (server, result) := server.conclude context answer
          (engine, server, result)
      | (engine, .error _) =>
          let server := server.release context
          let (server, result) :=
            server.sendError responder id opcode (some inquiry) Rcode.servFail
          (engine, server, result)

def answerDelivered (server : Server) (context : QueryContext)
    (answer : Answer) : Server :=
  (server.conclude context answer).1

end DnsForwarder.Server
