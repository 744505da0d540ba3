import DnsForwarder.Transport.Route

/-! Exchanges over TCP. Messages stand in a stream with their length in
front. -/

namespace DnsForwarder.Transport.Stream

def maxSize : Nat := 65535

def frame (message : Octets) : Octets :=
  wordBytes (UInt16.ofNat message.length) ++ message

structure Incoming where
  bytes : Octets
  ends : Bool

/-- Reads the message at the front of a stream. Where a stream neither goes on
nor ends, reading waits for ever. -/
def receive (server : Endpoint) (incoming : Incoming) : Result :=
  let short (part : String) :=
    if incoming.ends then
      failure s!"read TCP {part} from" server "" earlyEndReason
    else none
  match incoming.bytes with
  | high :: low :: rest =>
      let size := (wordOfBytes high low).toNat
      if size ≤ rest.length then some (.ok (rest.take size))
        else short "response"
  | _ => short "response length"

def exchange (server : Endpoint) (message : Octets) (route : Route Incoming) :
    Result :=
  if maxSize < message.length then
    some (.error (.invalidMessage (.tooLargeToFrame message.length)))
  else
    match route with
    | .unreachable => failure "connect to" server " over TCP" unreachableReason
    | .refused => failure "connect to" server " over TCP" refusedReason
    | .reached incoming => receive server incoming

end DnsForwarder.Transport.Stream
