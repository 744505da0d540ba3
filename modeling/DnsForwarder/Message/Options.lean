import DnsForwarder.Octets

/-! Options of the extension: pieces of data, each behind a code and its
length. -/

namespace DnsForwarder.Message

def extensionCode : UInt16 := 41

def networkCode : UInt16 := 8

def addressLength? (family : UInt16) : Option Nat :=
  if family = 1 then some 4
  else if family = 2 then some 16
  else none

/-- Whether data names a network: the family of its address, the length in bits
of the part that counts and of the part that an answer is good for, and at least
the bytes that the first needs. -/
def isNetwork : Octets → Bool
  | high :: low :: source :: _ :: address =>
      let needed := (source.toNat + 7) / 8
      (addressLength? (wordOfBytes high low)).any fun length =>
        needed ≤ length && needed ≤ address.length
  | _ => false

/-- Whether options fill their space. No length may be greater than the whole
space; the last option may be cut off behind its code or inside its data. -/
def optionsFit (space : Nat) : Octets → Bool
  | [] => true
  | [_, _] => true
  | c₁ :: c₂ :: high :: low :: rest =>
      let length := (wordOfBytes high low).toNat
      let complete := length ≤ rest.length
      length ≤ space &&
        (!complete || wordOfBytes c₁ c₂ != networkCode ||
          isNetwork (rest.take length)) &&
        optionsFit space (rest.drop length)
  | _ => false
termination_by bytes => bytes.length
decreasing_by
  simp only [List.length_drop, List.length_cons]
  omega

end DnsForwarder.Message
