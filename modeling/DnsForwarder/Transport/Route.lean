import DnsForwarder.Address.Endpoint
import DnsForwarder.Error
import DnsForwarder.Octets

/-! What the network does with an attempt to reach a server. -/

namespace DnsForwarder.Transport

/-- The way to a server: there is none, nobody listens at its end, or it leads
to what the server does. -/
inductive Route (α : Type) where
  | unreachable
  | refused
  | reached (peer : α)

def unreachableReason : String := "Network is unreachable (os error 101)"

def refusedReason : String := "Connection refused (os error 111)"

def earlyEndReason : String := "early eof"

/-- What an exchange brings: nothing if it waits for ever. -/
abbrev Result := Option (Except Error Octets)

def failure (doing : String) (server : Endpoint) (how reason : String) :
    Result :=
  some (.error (.io s!"Failed to {doing} {server}{how}: {reason}"))

end DnsForwarder.Transport
