import DnsForwarder.Error
import DnsForwarder.Text.Blank

/-! The record types that may be asked for. -/

namespace DnsForwarder

inductive RecordType where
  | a
  | aaaa
  | ptr
  | ns
  | mx
  | soa
  | srv
  | txt
  deriving DecidableEq, Repr

namespace RecordType

def all : List RecordType := [a, aaaa, ptr, ns, mx, soa, srv, txt]

def name : RecordType → String
  | a => "A"
  | aaaa => "AAAA"
  | ptr => "PTR"
  | ns => "NS"
  | mx => "MX"
  | soa => "SOA"
  | srv => "SRV"
  | txt => "TXT"

def code : RecordType → UInt16
  | a => 1
  | ns => 2
  | soa => 6
  | ptr => 12
  | mx => 15
  | txt => 16
  | aaaa => 28
  | srv => 33

def ofCode? (code : UInt16) : Option RecordType :=
  all.find? fun type => type.code == code

def ofCode (code : UInt16) : Except Error RecordType :=
  match ofCode? code with
  | some type => .ok type
  | none => .error (.unsupportedType s!"TYPE{code}")

def parse? (text : String) : Option RecordType :=
  all.find? fun type =>
    Text.fold type.name.toList == Text.fold (Text.trim text.toList)

def parse (text : String) : Except Error RecordType :=
  match parse? text with
  | some type => .ok type
  | none => .error (.unsupportedType text)

instance : ToString RecordType := ⟨name⟩

@[simp] theorem ofCode?_code (type : RecordType) :
    ofCode? type.code = some type := by
  cases type <;> rfl

theorem ofCode?_eq_some_iff {code : UInt16} {type : RecordType} :
    ofCode? code = some type ↔ type.code = code := by
  refine ⟨fun h => ?_, fun h => h ▸ ofCode?_code type⟩
  simpa using List.find?_some h

end RecordType

end DnsForwarder
