import DnsForwarder.Address.Endpoint
import DnsForwarder.Engine.Basic

/-! The sockets of a machine that a server listens on. -/

namespace DnsForwarder

/-- How a machine with the state `μ` gives sockets away and takes them back. -/
structure Network (μ : Type) where
  /-- Takes a socket, and answers where it is bound: a port of zero stands for
  any free one. -/
  bind : Protocol → Endpoint → μ → Except Error (μ × Endpoint)
  release : Endpoint → μ → μ

/-- Takes the sockets that a listener needs, both at one address. -/
def Network.listen {μ : Type} (network : Network μ) (endpoint : Endpoint)
    (machine : μ) :
    Except Error (μ × Endpoint) := do
  let (machine, bound) ← network.bind .udp endpoint machine
  let (machine, _) ← network.bind .tcp bound machine
  return (machine, bound)

structure Sockets where
  isLocal : IpAddress → Bool
  bound : List (Protocol × Endpoint) := []

namespace Endpoint

def address : Endpoint → IpAddress
  | .v4 address _ => .v4 address
  | .v6 address _ _ => .v6 address

def port : Endpoint → UInt16
  | .v4 _ port => port
  | .v6 _ port _ => port

def withPort (port : UInt16) : Endpoint → Endpoint
  | .v4 address _ => .v4 address port
  | .v6 address _ scope => .v6 address port scope

end Endpoint

namespace Sockets

def foreignReason : String := "Cannot assign requested address (os error 99)"

def inUseReason : String := "Address already in use (os error 98)"

/-- The ports that a machine gives away on its own. -/
def sparePorts : List UInt16 :=
  (List.range 28232).map fun offset => UInt16.ofNat (32768 + offset)

def settle (sockets : Sockets) (endpoint : Endpoint) : Endpoint :=
  if endpoint.port = 0 then
    match sparePorts.find? fun port => sockets.bound.all fun socket =>
      socket.2.port != port with
    | some port => endpoint.withPort port
    | none => endpoint
  else endpoint

def bind (protocol : Protocol) (endpoint : Endpoint) (sockets : Sockets) :
    Except Error (Sockets × Endpoint) :=
  let fail (reason : String) : Except Error (Sockets × Endpoint) :=
    .error (.startFailed
        s!"cannot bind DNS {protocol.name} socket on {endpoint}: {reason}")
  let bound := sockets.settle endpoint
  if !sockets.isLocal endpoint.address then fail foreignReason
  else if bound.port = 0 || sockets.bound.contains (protocol, bound) then
    fail inUseReason
  else .ok ({ sockets with bound := sockets.bound ++ [(protocol, bound)] },
    bound)

def release (endpoint : Endpoint) (sockets : Sockets) : Sockets :=
  { sockets with
    bound := sockets.bound.filter fun socket => socket.2 != endpoint }

def network : Network Sockets :=
  ⟨bind, release⟩

def listen (endpoint : Endpoint) (sockets : Sockets) : Except Error Sockets :=
  (network.listen endpoint sockets).map Prod.fst

end Sockets

end DnsForwarder
