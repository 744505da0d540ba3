import DnsForwarder.Address.Reader

/-! Socket addresses: an address with a port, and for IPv6 a scope. The flow
information that goes with an IPv6 address on a socket has no text, is zero in
whatever is read, and is left out. -/

namespace DnsForwarder

inductive Endpoint where
  | v4 (address : Ipv4) (port : UInt16)
  | v6 (address : Ipv6) (port : UInt16) (scope : UInt32)
  deriving DecidableEq, Repr

namespace Endpoint

def ofAddress (port : UInt16) : IpAddress → Endpoint
  | .v4 address => .v4 address port
  | .v6 address => .v6 address port 0

/-- `1.2.3.4:53` or `[::1]:53`; a scope other than zero stands behind a percent
sign. -/
def text : Endpoint → List Char
  | .v4 address port => address.text ++ ':' :: Text.decimal port.toNat
  | .v6 address port scope =>
      let zone := if scope = 0 then [] else '%' :: Text.decimal scope.toNat
      '[' :: address.text ++ zone ++ [']', ':'] ++ Text.decimal port.toNat

instance : ToString Endpoint := ⟨fun endpoint => String.ofList endpoint.text⟩

open Address

def readPort (text : List Char) : Option (UInt16 × List Char) := do
  let (port, rest) ← readNumber 10 none true 0xFFFF (← readChar ':' text)
  return (UInt16.ofNat port, rest)

def readV4 (text : List Char) : Option (Endpoint × List Char) := do
  let (address, rest) ← readIpv4 text
  let (port, rest) ← readPort rest
  return (.v4 address port, rest)

/-- A scope behind a percent sign; without a complete one the scope is zero and
nothing is taken. -/
def readScope (text : List Char) : UInt32 × List Char :=
  match (do readNumber 10 none true 0xFFFFFFFF (← readChar '%' text)) with
  | some (scope, rest) => (UInt32.ofNat scope, rest)
  | none => (0, text)

def readV6 (text : List Char) : Option (Endpoint × List Char) := do
  let (address, rest) ← readIpv6 (← readChar '[' text)
  let (scope, rest) := readScope rest
  let (port, rest) ← readPort (← readChar ']' rest)
  return (.v6 address port scope, rest)

def parse? (text : List Char) : Option Endpoint :=
  whole? (match readV4 text with
    | some result => some result
    | none => readV6 text)

end Endpoint

end DnsForwarder
