import DnsForwarder.Address.Endpoint
import DnsForwarder.Config.Basic
import DnsForwarder.Text.Blank

/-! Which configurations are acceptable. -/

namespace DnsForwarder

def defaultDnsPort : UInt16 := 53

/-- A text without the brackets around it, however many there are. -/
def stripBrackets (text : List Char) : List Char :=
  let opened := text.dropWhile (· == '[')
  (opened.reverse.dropWhile (· == ']')).reverse

/-- Reads the address of a server: a socket address, or an address alone, which
may stand in brackets. -/
def readServer? (text : List Char) : Option Endpoint :=
  match Endpoint.parse? text with
  | some endpoint => some endpoint
  | none =>
      (IpAddress.parse? (stripBrackets text)).map
        (Endpoint.ofAddress defaultDnsPort)

def parseServer (server : String) : Except ConfigError Endpoint :=
  let text := Text.trim server.toList
  match readServer? text with
  | some endpoint => .ok endpoint
  | none => .error (.validation (.badServer (String.ofList text)))

namespace DnsConfig

def endpoints (config : DnsConfig) : Except ConfigError (List Endpoint) :=
  config.servers.mapM parseServer

end DnsConfig

namespace Config

def minUdpPayload : UInt16 := 512

/-- Passes an acceptable configuration, and names the first fault of another
one. -/
def validate (config : Config) : Except ConfigError Unit := do
  if config.dns.servers = [] then throw (.validation .noServers)
  let _ ← config.dns.endpoints
  if config.dns.queryTimeout = 0 then throw (.validation .zeroTimeout)
  if config.dns.cacheMaxEntries = 0 then throw (.validation .emptyCache)
  if config.server.contextPoolSize = 0 then throw (.validation .emptyPool)
  if config.server.maxUdpPayload < minUdpPayload then
    throw (.validation .smallPayload)
  if IpAddress.parse? config.server.bindAddress.toList = none then
    throw (.validation (.badBindAddress config.server.bindAddress))

end Config

end DnsForwarder
