import DnsForwarder.DomainName.Labels
import DnsForwarder.Record

/-! Messages: a header, questions, and three sections of records. -/

namespace DnsForwarder

/-- A record with its names as labels and its strings as bytes. -/
abbrev WireRecord := RecordOver Labels Octets

namespace Message

abbrev Opcode := UInt8

def query : Opcode := 0

/-- How a request went; messages carry twelve bits of it, four of them in the
header. -/
abbrev Rcode := UInt16

namespace Rcode

def noError : Rcode := 0
def formErr : Rcode := 1
def servFail : Rcode := 2
def nxDomain : Rcode := 3
def notImp : Rcode := 4
def refused : Rcode := 5

def name (rcode : Rcode) : String :=
  if rcode = noError then "NOERROR"
  else if rcode = nxDomain then "NXDOMAIN"
  else if rcode = servFail then "SERVFAIL"
  else if rcode = refused then "REFUSED"
  else if rcode = notImp then "NOTIMP"
  else if rcode = formErr then "FORMERR"
  else "UNKNOWN"

end Rcode

structure Header where
  id : UInt16
  isResponse : Bool
  opcode : Opcode
  truncated : Bool
  recursionDesired : Bool
  recursionAvailable : Bool
  rcode : Rcode
  deriving DecidableEq, Repr

structure Inquiry where
  name : Labels
  typeCode : UInt16
  classCode : UInt16
  deriving DecidableEq, Repr

def internet : UInt16 := 1

/-- A record of a decoded message. Records without data and records of other
types than those of `RecordData` have no `data`. -/
structure Entry where
  owner : Labels
  typeCode : UInt16
  classCode : UInt16
  ttl : UInt32
  data : Option (RecordData Labels Octets)
  deriving DecidableEq, Repr

structure Extension where
  payload : UInt16
  rcodeHigh : UInt8
  deriving DecidableEq, Repr

end Message

/-- A decoded message. The extension stands apart from the additional
records. -/
structure Message where
  header : Message.Header
  questions : List Message.Inquiry
  answers : List Message.Entry
  authority : List Message.Entry
  additional : List Message.Entry
  extension? : Option Message.Extension
  deriving DecidableEq, Repr

namespace Message

def rcode (message : Message) : Rcode :=
  let high := (message.extension?.map Extension.rcodeHigh).getD 0
  UInt16.ofNat (high.toNat * 16) + message.header.rcode

def Entry.record? (entry : Entry) : Option WireRecord :=
  entry.data.map fun data => ⟨entry.owner, entry.ttl, data⟩

end Message

end DnsForwarder
