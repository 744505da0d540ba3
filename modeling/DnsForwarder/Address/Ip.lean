import DnsForwarder.Octets
import DnsForwarder.Text.Numeral
import DnsForwarder.Text.Split

/-! Internet addresses of both families and their canonical text. -/

namespace DnsForwarder

structure Ipv4 where
  first : UInt8
  second : UInt8
  third : UInt8
  fourth : UInt8
  deriving DecidableEq, Repr

structure Ipv6 where
  groups : List UInt16
  length_groups : groups.length = 8 := by decide
  deriving DecidableEq, Repr

inductive IpAddress where
  | v4 (address : Ipv4)
  | v6 (address : Ipv6)
  deriving DecidableEq, Repr

namespace Ipv4

def octets (address : Ipv4) : Octets :=
  [address.first, address.second, address.third, address.fourth]

def ofOctets? : Octets → Option Ipv4
  | [a, b, c, d] => some ⟨a, b, c, d⟩
  | _ => none

def text (address : Ipv4) : List Char :=
  Text.join ['.'] (address.octets.map fun octet => Text.decimal octet.toNat)

end Ipv4

namespace Ipv6

def ofGroups? (groups : List UInt16) : Option Ipv6 :=
  if h : groups.length = 8 then some ⟨groups, h⟩ else none

def octets (address : Ipv6) : Octets :=
  address.groups.flatMap wordBytes

def groupsOfOctets : Octets → List UInt16
  | high :: low :: rest => wordOfBytes high low :: groupsOfOctets rest
  | _ => []

def ofOctets? (octets : Octets) : Option Ipv6 :=
  if octets.length = 16 then ofGroups? (groupsOfOctets octets) else none

/-- The IPv4 address that `::ffff:0:0/96` embeds. -/
def mapped? (address : Ipv6) : Option Ipv4 :=
  match address.groups with
  | [0, 0, 0, 0, 0, 0xFFFF, high, low] =>
      Ipv4.ofOctets? (wordBytes high ++ wordBytes low)
  | _ => none

def zeroRun (groups : List UInt16) : Nat :=
  (groups.takeWhile (· == 0)).length

def longestZeroRun (groups : List UInt16) : Nat × Nat :=
  (List.range groups.length).foldl
    (fun best start =>
      let length := zeroRun (groups.drop start)
      if best.2 < length then (start, length) else best)
    (0, 0)

def groupsText (groups : List UInt16) : List Char :=
  Text.join [':'] (groups.map fun group => Text.hexadecimal group.toNat)

/-- Lowercase groups without leading zeros. The longest run of at least two zero
groups is written `::`, and a mapped IPv4 address keeps its dotted form. -/
def text (address : Ipv6) : List Char :=
  match address.mapped? with
  | some embedded => [':', ':', 'f', 'f', 'f', 'f', ':'] ++ embedded.text
  | none =>
      let (start, length) := longestZeroRun address.groups
      if length < 2 then groupsText address.groups
      else
        groupsText (address.groups.take start) ++ [':', ':'] ++
          groupsText (address.groups.drop (start + length))

end Ipv6

namespace IpAddress

def text : IpAddress → List Char
  | .v4 address => address.text
  | .v6 address => address.text

end IpAddress

instance : ToString Ipv4 := ⟨fun address => String.ofList address.text⟩
instance : ToString Ipv6 := ⟨fun address => String.ofList address.text⟩
instance : ToString IpAddress := ⟨fun address => String.ofList address.text⟩

end DnsForwarder
