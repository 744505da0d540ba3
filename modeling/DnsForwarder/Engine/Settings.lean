import DnsForwarder.Config.Validation

/-! What a resolver engine has to know before it starts. -/

namespace DnsForwarder

structure Settings where
  servers : List Endpoint
  alwaysTcp : Bool
  retries : Nat
  timeout : Nat
  negativeTtl : UInt32
  cacheMaxEntries : Nat
  maxTtl : UInt32
  deriving DecidableEq, Repr

namespace Settings

def ofServers (config : DnsConfig) (servers : List Endpoint) : Settings where
  servers := servers
  alwaysTcp := config.alwaysTcp
  retries := config.retries.toNat
  timeout := config.queryTimeout.toNat
  negativeTtl := config.negativeTtl
  cacheMaxEntries := config.cacheMaxEntries.toNat
  maxTtl := config.cacheMaxTtl

def ofConfig (config : DnsConfig) : Except ConfigError Settings :=
  config.endpoints.map (ofServers config)

def withServer (server : Endpoint) : Settings :=
  ofServers {} [server]

end Settings

end DnsForwarder
