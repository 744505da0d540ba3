import DnsForwarder.Server.Pool

/-! The state of a caching server beside its engine, and how it sends
replies. -/

namespace DnsForwarder

/-- Who makes requests to the engine of a server: the server itself, or a
guest. -/
inductive Party (κ : Type) where
  | server
  | guest (caller : κ)
  deriving DecidableEq, Repr

inductive Parcel (γ : Type) where
  | query (context : QueryContext)
  | guest (context : γ)

structure SentReply where
  responder : Responder
  bytes : Octets
  deriving DecidableEq, Repr

/-- What was reported of a reply that could not be sent, and how many slots were
in use then. -/
structure Report where
  error : Error
  inUse : Nat
  deriving DecidableEq, Repr

structure Server where
  pool : ContextPool
  recursionAvailable : Bool
  maxUdpPayload : UInt16
  /-- Lines that carry no replies, and why. -/
  faults : List (Nat × String) := []
  /-- Whether someone wants to know of replies that could not be sent. -/
  hooked : Bool := true
  sendFailures : Nat := 0
  reports : List Report := []
  handed : List SentReply := []

namespace Server

open Message

def fault? (server : Server) (responder : Responder) : Option String :=
  server.faults.lookup responder.line

def send (server : Server) (responder : Responder) (bytes : Octets) :
    Server × Except Error Unit :=
  ({ server with handed := server.handed ++ [⟨responder, bytes⟩] },
    match server.fault? responder with
    | some reason => .error (.sendFailed (toString responder.peer) reason)
    | none => .ok ())

def replies (server : Server) : List SentReply :=
  server.handed.filter fun reply => (server.fault? reply.responder).isNone

/-- Counts and reports a reply that could not be sent; other errors are no such
failures. -/
def report (server : Server) (result : Except Error Unit) : Server :=
  match result with
  | .error (.sendFailed peer reason) =>
      { server with
        sendFailures := server.sendFailures + 1
        reports :=
          if server.hooked then
            server.reports ++ [⟨.sendFailed peer reason, server.pool.inUse⟩]
          else server.reports }
  | _ => server

def reported (server : Server) : List Error :=
  server.reports.map Report.error

def release (server : Server) (context : QueryContext) : Server :=
  { server with pool := server.pool.release context }

def rcodeOf : Status → Rcode
  | .ok | .noData => Rcode.noError
  | .noDomain => Rcode.nxDomain
  | .refused => Rcode.refused
  | .error | .timeout => Rcode.servFail

def replyHeader (server : Server) (context : QueryContext) (truncated : Bool) :
    ReplyHeader :=
  ⟨context.id, context.opcode?.getD query, context.recursionDesired,
    server.recursionAvailable, truncated⟩

/-- The reply to a query: the whole answer if the client takes it, and else a
mark that it was cut. -/
def replyBytes (server : Server) (context : QueryContext) (answer : Answer) :
    Except Error Octets := do
  let rcode := rcodeOf answer.status
  let whole ← buildResponse (server.replyHeader context false) context.inquiry?
      rcode answer.records
  if whole.length ≤ context.maxResponseSize then return whole
  else buildResponse (server.replyHeader context true) context.inquiry? rcode []

def noResponder : Error :=
  .sendFailed "unknown" "query context without responder"

def respond (server : Server) (context : QueryContext) (answer : Answer) :
    Server × Except Error Unit :=
  match context.responder? with
  | none => (server, .error noResponder)
  | some responder =>
      match server.replyBytes context answer with
      | .error error => (server, .error error)
      | .ok bytes => server.send responder bytes

def sendError (server : Server) (responder : Responder) (id : UInt16)
    (opcode : Opcode) (inquiry? : Option Inquiry) (rcode : Rcode) :
    Server × Except Error Unit :=
  match buildError id opcode inquiry? rcode with
  | .error error => (server, .error error)
  | .ok bytes => server.send responder bytes

/-- Answers a query and gives its slot back; only then is a failure reported. -/
def conclude (server : Server) (context : QueryContext) (answer : Answer) :
    Server × Except Error Unit :=
  let (server, result) := server.respond context answer
  ((server.release context).report result, result)

end Server

end DnsForwarder
