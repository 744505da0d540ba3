import DnsForwarder.Address.Ip

/-! Reading addresses. Each reader takes an address off the front of a text and
answers what is left; `Ipv4.parse?`, `Ipv6.parse?` and `IpAddress.parse?` accept
a text only as a whole. -/

namespace DnsForwarder.Address

/-- Takes the longest row of digits off a text. It may hold at most `width`
digits, its value may not exceed `limit`, and a zero may stand in front of
further digits only with `leadingZero`. -/
def readNumber (radix : Nat) (width : Option Nat) (leadingZero : Bool)
    (limit : Nat) (text : List Char) : Option (Nat × List Char) :=
  let digits := text.takeWhile fun c => (Text.digit? radix c).isSome
  let rest := text.dropWhile fun c => (Text.digit? radix c).isSome
  if digits = [] ∨ width.any (· < digits.length) ∨
      (leadingZero = false ∧ digits.head? = some '0' ∧ 1 < digits.length) then
      none
  else if limit < Text.ofDigits radix digits then none
  else some (Text.ofDigits radix digits, rest)

def readOctet (text : List Char) : Option (UInt8 × List Char) :=
  (readNumber 10 (some 3) false 255 text).map fun (value, rest) =>
    (UInt8.ofNat value, rest)

def readGroup (text : List Char) : Option (UInt16 × List Char) :=
  (readNumber 16 (some 4) true 0xFFFF text).map fun (value, rest) =>
    (UInt16.ofNat value, rest)

def readChar (expected : Char) : List Char → Option (List Char)
  | c :: rest => if c = expected then some rest else none
  | [] => none

def readIpv4 (text : List Char) : Option (Ipv4 × List Char) := do
  let (a, rest) ← readOctet text
  let (b, rest) ← readOctet (← readChar '.' rest)
  let (c, rest) ← readOctet (← readChar '.' rest)
  let (d, rest) ← readOctet (← readChar '.' rest)
  return (⟨a, b, c, d⟩, rest)

structure Groups where
  groups : List UInt16
  dotted : Bool
  rest : List Char

/-- Takes at most `room` groups off a text, each but the first behind a colon.
Where two groups still fit, a dotted IPv4 address may stand for them, and ends
the row. -/
def readGroups : (room : Nat) → (leading : Bool) → List Char → Groups
  | 0, _, text => ⟨[], false, text⟩
  | room + 1, leading, text =>
      match (if leading then some text else readChar ':' text) with
      | none => ⟨[], false, text⟩
      | some start =>
          match (if 0 < room then readIpv4 start else none) with
          | some (embedded, rest) =>
              ⟨Ipv6.groupsOfOctets embedded.octets, true, rest⟩
          | none =>
              match readGroup start with
              | none => ⟨[], false, text⟩
              | some (group, rest) =>
                  let others := readGroups room false rest
                  { others with groups := group :: others.groups }

def readIpv6 (text : List Char) : Option (Ipv6 × List Char) := do
  let head := readGroups 8 true text
  if head.groups.length = 8 then
    return (← Ipv6.ofGroups? head.groups, head.rest)
  if head.dotted then none
  let rest ← readChar ':' (← readChar ':' head.rest)
  let tail := readGroups (7 - head.groups.length) true rest
  let gap := List.replicate (8 - head.groups.length - tail.groups.length) 0
  return (← Ipv6.ofGroups? (head.groups ++ gap ++ tail.groups), tail.rest)

def readIpAddress (text : List Char) : Option (IpAddress × List Char) :=
  match readIpv4 text with
  | some (address, rest) => some (.v4 address, rest)
  | none => (readIpv6 text).map fun (address, rest) => (.v6 address, rest)

def whole? {α : Type} : Option (α × List Char) → Option α
  | some (value, []) => some value
  | _ => none

end DnsForwarder.Address

namespace DnsForwarder

open Address

def Ipv4.parse? (text : List Char) : Option Ipv4 :=
  whole? (readIpv4 text)

def Ipv6.parse? (text : List Char) : Option Ipv6 :=
  whole? (readIpv6 text)

def IpAddress.parse? (text : List Char) : Option IpAddress :=
  whole? (readIpAddress text)

end DnsForwarder
