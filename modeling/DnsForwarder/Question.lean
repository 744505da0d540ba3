import DnsForwarder.Address.Reader
import DnsForwarder.DomainName.Normal
import DnsForwarder.DomainName.Reverse
import DnsForwarder.RecordType

/-! Questions: a record type and what it is asked of. Two questions are the same
request exactly when they are equal, so every spelling of a name or an address
leads to one question. -/

namespace DnsForwarder

inductive Target where
  | name (name : String)
  | address (address : IpAddress)
  deriving DecidableEq, Repr

structure Question where
  type : RecordType
  target : Target
  deriving DecidableEq, Repr

namespace Question

def reverse (address : IpAddress) : Question :=
  ⟨.ptr, .address address⟩

/-- The address that a question of the given type stands for, read from a text
as it was written. -/
def literal? (type : RecordType) (text : List Char) : Option IpAddress :=
  if type = .ptr then IpAddress.parse? (Text.trim text) else none

def folded? (type : RecordType) (name : List Char) : Option IpAddress :=
  if type = .ptr then IpAddress.ofReverseName? name else none

/-- The question that a text asks. For `PTR` an address and a complete reverse
name both ask for the address. -/
def ofText (type : RecordType) (text : String) : Except Error Question :=
  match literal? type text.toList with
  | some address => .ok (reverse address)
  | none =>
      match DomainName.normalizeText text.toList with
      | .error fault => .error (.invalidName fault)
      | .ok name =>
          match folded? type name with
          | some address => .ok (reverse address)
          | none => .ok ⟨type, .name (String.ofList name)⟩

def name? (question : Question) : Option String :=
  match question.target with
  | .name name => some name
  | .address _ => none

def queryName (question : Question) : String :=
  match question.target with
  | .name name => if name = "." then name else name ++ "."
  | .address address => String.ofList address.reverseName

instance : ToString Target where
  toString
    | .name name => name
    | .address address => toString address

instance : ToString Question where
  toString question := s!"{question.type} {question.target}"

end Question

end DnsForwarder
