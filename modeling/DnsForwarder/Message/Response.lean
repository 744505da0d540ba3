import DnsForwarder.DomainName.Presentation
import DnsForwarder.Message.Reader
import DnsForwarder.Message.Writer
import DnsForwarder.Question
import DnsForwarder.Text.Utf8

/-! Queries to other servers, responses to clients, and what a response of
another server says. -/

namespace DnsForwarder

open Message

structure ReplyHeader where
  id : UInt16
  opcode : Opcode
  recursionDesired : Bool
  recursionAvailable : Bool
  truncated : Bool
  deriving DecidableEq, Repr

namespace Record

def toWire (record : Record) : Except Error WireRecord := do
  let owner ← DomainName.toLabels record.owner
  let data ← record.data.mapNames DomainName.toLabels fun string =>
    Text.encode string.toList
  return ⟨owner, record.ttl, data⟩

def respell (record : Record) : Except Error Record := do
  let owner ← DomainName.respell record.owner
  let data ← record.data.mapNames DomainName.respell id
  return ⟨owner, record.ttl, data⟩

def storedName (labels : Labels) : String :=
  String.ofList (DomainName.storedText labels)

def ofWire (record : WireRecord) : Record :=
  ⟨storedName record.owner, record.ttl,
    record.data.map storedName fun bytes =>
      String.ofList (Text.decodeLossy bytes)⟩

end Record

namespace Message

def encoded (result : Except WriteFault Octets) : Except Error Octets :=
  match result with
  | .ok bytes => .ok bytes
  | .error _ => .error (.invalidMessage .unencodable)

def Inquiry.ofQuestion (question : Question) : Except Error Inquiry := do
  let name ← DomainName.toLabels question.queryName
  return ⟨name, question.type.code, internet⟩

def queryHeader (id : UInt16) : Header :=
  ⟨id, false, query, false, true, false, Rcode.noError⟩

def buildQuery (question : Question) (id : UInt16) : Except Error Octets := do
  let inquiry ← Inquiry.ofQuestion question
  encoded (encode (queryHeader id) [inquiry] [])

def replyHeader (header : ReplyHeader) (rcode : Rcode) : Header :=
  ⟨header.id, true, header.opcode, header.truncated, header.recursionDesired,
    header.recursionAvailable, rcode⟩

/-- A response with records in its answer section. A truncated one has none; the
client is to ask again over TCP. -/
def buildResponse (header : ReplyHeader) (inquiry? : Option Inquiry)
    (rcode : Rcode) (records : List Record) : Except Error Octets := do
  let answers ← (if header.truncated then [] else records).mapM Record.toWire
  encoded (encode (replyHeader header rcode) inquiry?.toList answers)

def errorHeader (id : UInt16) (opcode : Opcode) (rcode : Rcode) : Header :=
  ⟨id, true, opcode, false, false, false, rcode⟩

def buildError (id : UInt16) (opcode : Opcode) (inquiry? : Option Inquiry)
    (rcode : Rcode) :
    Except Error Octets :=
  encoded (encode (errorHeader id opcode rcode) inquiry?.toList [])

end Message

structure Response where
  id : UInt16
  rcode : Rcode
  truncated : Bool
  records : List Record
  message : Message
  deriving DecidableEq, Repr

namespace Response

def ofMessage (message : Message) : Response where
  id := message.header.id
  rcode := message.rcode
  truncated := message.header.truncated
  records := (message.answers.filterMap Entry.record?).map Record.ofWire
  message := message

def parse (bytes : Octets) : Except Error Response :=
  match decode? bytes with
  | none => .error (.invalidMessage .undecodable)
  | some message =>
      if message.header.isResponse then .ok (ofMessage message)
      else .error (.invalidMessage .notAResponse)

def askedName (inquiry : Inquiry) : List Char :=
  Text.fold (DomainName.text inquiry.name)

def answers (response : Response) (id : UInt16) (question : Question) : Bool :=
  match response.message.questions with
  | [inquiry] =>
      response.id == id &&
        RecordType.ofCode? inquiry.typeCode == some question.type &&
        askedName inquiry == question.queryName.toList
  | _ => false

/-- Whether some record has the type that was asked for; an alias alone is no
data. -/
def hasRecordsFor (response : Response) (question : Question) : Bool :=
  response.records.any fun record => record.data.type? == some question.type

end Response

end DnsForwarder
