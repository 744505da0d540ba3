/-! The configuration of the forwarder, with its defaults. -/

namespace DnsForwarder

structure ServerConfig where
  dnsPort : UInt16 := 53
  bindAddress : String := "0.0.0.0"
  recursionAvailable : Bool := true
  maxUdpPayload : UInt16 := 1232
  contextPoolSize : UInt64 := 256
  tcpIdleTimeout : UInt64 := 10
  deriving DecidableEq, Repr

structure DnsConfig where
  servers : List String := ["8.8.8.8:53", "1.1.1.1:53"]
  queryTimeout : UInt64 := 2000
  retries : UInt32 := 2
  alwaysTcp : Bool := false
  negativeTtl : UInt32 := 300
  cacheMaxEntries : UInt64 := 10000
  cacheMaxTtl : UInt32 := 86400
  deriving DecidableEq, Repr

structure LoggingConfig where
  level : String := "info"
  json : Bool := false
  deriving DecidableEq, Repr

structure Config where
  server : ServerConfig := {}
  dns : DnsConfig := {}
  logging : LoggingConfig := {}
  deriving DecidableEq, Repr

inductive ValidationFault where
  | noServers
  | badServer (text : String)
  | zeroTimeout
  | emptyCache
  | emptyPool
  | smallPayload
  | badBindAddress (text : String)
  deriving DecidableEq, Repr

inductive ConfigError where
  | read (path reason : String)
  | parse (path : String)
  | validation (fault : ValidationFault)
  deriving DecidableEq, Repr

namespace ValidationFault

def message : ValidationFault → String
  | .noServers => "at least one upstream server must be configured"
  | .badServer text => s!"invalid upstream server '{text}'"
  | .zeroTimeout => "dns.query_timeout must be greater than zero"
  | .emptyCache => "dns.cache_max_entries must be greater than zero"
  | .emptyPool => "server.context_pool_size must be greater than zero"
  | .smallPayload => "server.max_udp_payload must be at least 512"
  | .badBindAddress text => s!"invalid bind address '{text}'"

end ValidationFault

namespace ConfigError

def message : ConfigError → String
  | .read path reason => s!"Failed to read config file '{path}': {reason}"
  | .parse path => s!"Failed to parse config file '{path}':"
  | .validation fault => s!"Invalid configuration: {fault.message}"

end ConfigError

end DnsForwarder
