import DnsForwarder.Transport.Route

/-! Exchanges over UDP. A message goes out in one datagram, and the first
datagram that starts with the same id is the reply; all others are passed
over. -/

namespace DnsForwarder.Transport.Datagram

def receiveSize : Nat := 4096

def repliesTo (message datagram : Octets) : Bool :=
  2 ≤ datagram.length && datagram.take 2 == message.take 2

def reply? (message : Octets) (datagrams : List Octets) : Option Octets :=
  (datagrams.map fun datagram => datagram.take receiveSize).find?
    (repliesTo message)

def exchange (server : Endpoint) (message : Octets)
    (route : Route (List Octets)) : Result :=
  if message.length < 2 then some (.error (.invalidMessage .shorterThanId))
  else
    match route with
    | .unreachable =>
        failure "connect UDP socket to" server "" unreachableReason
    | .refused => failure "receive UDP response from" server "" refusedReason
    | .reached datagrams => (reply? message datagrams).map .ok

end DnsForwarder.Transport.Datagram
