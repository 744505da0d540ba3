import DnsForwarder.Address.Ip

/-! Names for reverse lookups: an address spelled backwards under `in-addr.arpa`
or `ip6.arpa`. -/

namespace DnsForwarder

def nibbles (octet : UInt8) : List Nat :=
  [octet.toNat % 16, octet.toNat / 16]

namespace IpAddress

def reverseLabels : IpAddress → List (List Char)
  | .v4 address =>
      address.octets.reverse.map fun octet => Text.decimal octet.toNat
  | .v6 address => (address.octets.reverse.flatMap nibbles).map Text.hexadecimal

def reverseZone : IpAddress → List Char
  | .v4 _ => ".in-addr.arpa".toList
  | .v6 _ => ".ip6.arpa".toList

def bareReverseName (address : IpAddress) : List Char :=
  Text.join ['.'] address.reverseLabels ++ address.reverseZone

def reverseName (address : IpAddress) : List Char :=
  address.bareReverseName ++ ['.']

def octetsOfNibbles : List Nat → List UInt8
  | low :: high :: rest =>
      octetsOfNibbles rest ++ [UInt8.ofNat (high * 16 + low)]
  | _ => []

def nibble? : List Char → Option Nat
  | [c] => Text.digit? 16 c
  | _ => none

def v4OfLabels? (labels : List (List Char)) : Option IpAddress := do
  let octets ← labels.mapM (Text.unsigned? 255)
  return .v4 (← Ipv4.ofOctets? (octets.reverse.map UInt8.ofNat))

def v6OfLabels? (labels : List (List Char)) : Option IpAddress := do
  let digits ← labels.mapM nibble?
  if digits.length ≠ 32 then none
  return .v6 (← Ipv6.ofOctets? (octetsOfNibbles digits))

/-- The address that a complete reverse name stands for. Zones cut off in the
middle of an address stand for none. -/
def ofReverseName? (name : List Char) : Option IpAddress :=
  match Text.dropEnding? ".in-addr.arpa".toList name with
  | some labels => v4OfLabels? (Text.split '.' labels)
  | none =>
      match Text.dropEnding? ".ip6.arpa".toList name with
      | some labels => v6OfLabels? (Text.split '.' labels)
      | none => none

end IpAddress

end DnsForwarder
