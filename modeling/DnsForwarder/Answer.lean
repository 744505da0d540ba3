import DnsForwarder.Question
import DnsForwarder.Record

/-! Answers to questions, and for how long they may be kept. -/

namespace DnsForwarder

inductive Status where
  | ok
  | noData
  | noDomain
  | refused
  | error
  | timeout
  deriving DecidableEq, Repr

namespace Status

def name : Status → String
  | ok => "OK"
  | noData => "NODATA"
  | noDomain => "NODOMAIN"
  | refused => "REFUSED"
  | error => "ERROR"
  | timeout => "TIMEOUT"

def isCacheable : Status → Bool
  | ok | noData | noDomain => true
  | refused | error | timeout => false

def isNegative : Status → Bool
  | noData | noDomain => true
  | ok | refused | error | timeout => false

instance : ToString Status := ⟨name⟩

end Status

structure Answer where
  status : Status
  rcode : UInt16
  question : Question
  records : List Record
  ttl : UInt32
  deriving DecidableEq, Repr

namespace Answer

def minTtl? (records : List Record) : Option UInt32 :=
  (records.map RecordOver.ttl).min?

/-- The lifetime of an answer: that of its shortest-lived record, no more than
`negativeTtl` when the status is negative, and `negativeTtl` without records. -/
def lifetime (status : Status) (records : List Record) (negativeTtl : UInt32) :
    UInt32 :=
  match minTtl? records with
  | some ttl => if status.isNegative then min ttl negativeTtl else ttl
  | none => negativeTtl

def ofRecords (status : Status) (rcode : UInt16) (question : Question)
    (records : List Record) (negativeTtl : UInt32) : Answer :=
  ⟨status, rcode, question, records, lifetime status records negativeTtl⟩

def failure (status : Status) (rcode : UInt16) (question : Question) : Answer :=
  ⟨status, rcode, question, [], 0⟩

def isOk (answer : Answer) : Bool :=
  answer.status == .ok

def addresses (answer : Answer) : List IpAddress :=
  answer.records.filterMap fun record =>
    match record.data with
    | .a address => some (.v4 address)
    | .aaaa address => some (.v6 address)
    | _ => none

end Answer

end DnsForwarder
