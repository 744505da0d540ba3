import DnsForwarder.Engine.Basic

/-! Servers whose replies depend on the queries they have had. A script is a
list of replies, used up in order; it belongs either to what queries ask for on
the wire, or to the questions that they were built for. -/

namespace DnsForwarder.Simulation

open Message

inductive ReplyBody where
  /-- A response that echoes the query, save for what the fields change. -/
  | message (rcode : Rcode) (truncated : Bool) (records : List Record)
    (idShift : UInt16) (isResponse : Bool) (questions? : Option (List Inquiry))
  /-- Bytes as they are, or with the id of the query in front. -/
  | raw (bytes : Octets) (patchId : Bool)
  | fail (reason : String)
  | hang

structure Reply where
  body : ReplyBody
  delay : Nat := 0

/-- What a query gets, given the exchanges before it. -/
abbrev NameServers := (earlier : List Exchange) → Exchange → Reply

def scriptKey (query : Octets) : String :=
  match decode? query with
  | some { questions := inquiry :: _, .. } =>
      let type :=
        ((RecordType.ofCode? inquiry.typeCode).map RecordType.name).getD ""
      s!"{type} {Record.storedName inquiry.name}"
  | _ => ""

namespace NameServers

def ofScripts (scripts : List (String × List Reply)) (fallback : Reply) :
    NameServers :=
  fun earlier exchange =>
    let key := scriptKey exchange.query
    let used := earlier.countP fun other => scriptKey other.query = key
    ((scripts.lookup key).getD [])[used]?.getD fallback

def asked (question : Question) (earlier : List Exchange) : Nat :=
  earlier.countP fun exchange => exchange.question = question

/-- Replies that depend on nothing but the question and how often it has been
asked before. -/
def ofQuestions (reply : Question → Nat → Reply) : NameServers :=
  fun earlier exchange =>
    reply exchange.question (asked exchange.question earlier)

end NameServers

def respondTo (query : Message) (rcode : Rcode) (truncated : Bool)
    (records : List Record) (idShift : UInt16) (isResponse : Bool)
    (questions? : Option (List Inquiry)) :
    Except Error Octets := do
  let header : Header :=
    ⟨query.header.id + idShift, isResponse, query.header.opcode, truncated,
      true, true, rcode⟩
  let answers ← records.mapM Record.toWire
  encoded (encode header (questions?.getD query.questions) answers)

/-- What a reply gives to a query in the end; nothing if it never comes. -/
def Reply.result? (reply : Reply) (query : Octets) :
    Option (Except Error Octets) :=
  match reply.body with
  | .message rcode truncated records idShift isResponse questions? =>
      (decode? query).map fun message =>
        respondTo message rcode truncated records idShift isResponse questions?
  | .raw bytes patchId =>
      if patchId && 2 ≤ bytes.length then
        some (.ok (query.take 2 ++ bytes.drop 2))
      else some (.ok bytes)
  | .fail reason => some (.error (.io reason))
  | .hang => none

end DnsForwarder.Simulation
