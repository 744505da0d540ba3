import DnsForwarder.Address.Ip
import DnsForwarder.RecordType

/-! Resource records and their presentation form. Records are given over a form
of names `ν` and a form of character strings `σ`: in texts both are strings, in
messages they are labels and bytes. -/

namespace DnsForwarder

inductive RecordData (ν σ : Type) where
  | a (address : Ipv4)
  | aaaa (address : Ipv6)
  | ptr (target : ν)
  | ns (target : ν)
  | cname (target : ν)
  | mx (preference : UInt16) (exchange : ν)
  | soa (primary mailbox : ν) (serial : UInt32) (refresh retry expire : Int32)
    (minimum : UInt32)
  | srv (priority weight port : UInt16) (target : ν)
  | txt (strings : List σ)
  deriving DecidableEq, Repr

namespace RecordData

variable {ν σ ν' σ' : Type}

/-- The type that asks for such a record; an alias answers questions of any type
and has none. -/
def type? : RecordData ν σ → Option RecordType
  | .a _ => some .a
  | .aaaa _ => some .aaaa
  | .ptr _ => some .ptr
  | .ns _ => some .ns
  | .cname _ => none
  | .mx .. => some .mx
  | .soa .. => some .soa
  | .srv .. => some .srv
  | .txt _ => some .txt

def aliasCode : UInt16 := 5

def typeCode (data : RecordData ν σ) : UInt16 :=
  (data.type?.map RecordType.code).getD aliasCode

def typeName (data : RecordData ν σ) : String :=
  (data.type?.map RecordType.name).getD "CNAME"

def map (onName : ν → ν') (onString : σ → σ') :
    RecordData ν σ → RecordData ν' σ'
  | .a address => .a address
  | .aaaa address => .aaaa address
  | .ptr target => .ptr (onName target)
  | .ns target => .ns (onName target)
  | .cname target => .cname (onName target)
  | .mx preference exchange => .mx preference (onName exchange)
  | .soa primary mailbox serial refresh retry expire minimum =>
      .soa (onName primary) (onName mailbox) serial refresh retry expire minimum
  | .srv priority weight port target =>
      .srv priority weight port (onName target)
  | .txt strings => .txt (strings.map onString)

def mapNames {ε : Type} (onName : ν → Except ε ν') (onString : σ → σ') :
    RecordData ν σ → Except ε (RecordData ν' σ')
  | .a address => .ok (.a address)
  | .aaaa address => .ok (.aaaa address)
  | .ptr target => (onName target).map .ptr
  | .ns target => (onName target).map .ns
  | .cname target => (onName target).map .cname
  | .mx preference exchange => (onName exchange).map (.mx preference)
  | .soa primary mailbox serial refresh retry expire minimum => do
      let primary ← onName primary
      let mailbox ← onName mailbox
      return .soa primary mailbox serial refresh retry expire minimum
  | .srv priority weight port target =>
      (onName target).map (.srv priority weight port)
  | .txt strings => .ok (.txt (strings.map onString))

def quoted (text : String) : String :=
  "\"" ++ text ++ "\""

def text : RecordData String String → String
  | .a address => toString address
  | .aaaa address => toString address
  | .ptr target => target
  | .ns target => target
  | .cname target => target
  | .mx preference exchange => s!"{preference} {exchange}"
  | .soa primary mailbox serial refresh retry expire minimum =>
      s!"{primary} {mailbox} {serial} {refresh} {retry} {expire} {minimum}"
  | .srv priority weight port target => s!"{priority} {weight} {port} {target}"
  | .txt strings => " ".intercalate (strings.map quoted)

end RecordData

structure RecordOver (ν σ : Type) where
  owner : ν
  ttl : UInt32
  data : RecordData ν σ
  deriving DecidableEq, Repr

abbrev Record := RecordOver String String

namespace Record

def isExpired (record : Record) (elapsed : UInt32) : Bool :=
  record.ttl ≤ elapsed

def remaining (record : Record) (elapsed : UInt32) : UInt32 :=
  if record.ttl ≤ elapsed then 0 else record.ttl - elapsed

def text (record : Record) : String :=
  s!"{record.owner} {record.ttl} IN {record.data.typeName} {record.data.text}"

end Record

end DnsForwarder
