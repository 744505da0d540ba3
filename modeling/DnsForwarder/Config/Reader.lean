import DnsForwarder.Config.Basic
import DnsForwarder.Octets
import DnsForwarder.Text.Utf8
import DnsForwarder.Toml.Document

/-! Reading a configuration from a TOML document. Every field may be missing and
has a default then; unknown fields are ignored; a field of the wrong type or out
of range spoils the document. -/

namespace DnsForwarder

open Toml

namespace Config

/-- How the fields of a table are found: by name, or by position in an array
that lists them in order. A date has no fields. -/
def fields? : Value → Option (String → Nat → Option Value)
  | .table _ entries => some fun name _ => entries.lookup name
  | .array _ items => some fun _ position => items[position]?
  | .dateTime _ => some fun _ _ => none
  | _ => none

def unsigned? (limit : Nat) : Value → Option Nat
  | .integer value =>
      if 0 ≤ value ∧ value ≤ limit then some value.toNat else none
  | _ => none

def word? (value : Value) : Option UInt16 :=
  (unsigned? 0xFFFF value).map UInt16.ofNat

def long? (value : Value) : Option UInt32 :=
  (unsigned? 0xFFFFFFFF value).map UInt32.ofNat

def wide? (value : Value) : Option UInt64 :=
  (unsigned? 0xFFFFFFFFFFFFFFFF value).map UInt64.ofNat

def boolean? : Value → Option Bool
  | .boolean value => some value
  | _ => none

def string? : Value → Option String
  | .string text => some text
  | _ => none

def strings? : Value → Option (List String)
  | .array _ items => items.mapM string?
  | _ => none

def fieldOr {α : Type} (default : α) (decode : Value → Option α) :
    Option Value → Option α
  | none => some default
  | some value => decode value

def server? (value : Value) : Option ServerConfig := do
  let field ← fields? value
  let defaults : ServerConfig := {}
  return {
    dnsPort := ← fieldOr defaults.dnsPort word? (field "dns_port" 0)
    bindAddress :=
      ← fieldOr defaults.bindAddress string? (field "bind_address" 1)
    recursionAvailable :=
      ← fieldOr defaults.recursionAvailable boolean?
          (field "recursion_available" 2)
    maxUdpPayload :=
      ← fieldOr defaults.maxUdpPayload word? (field "max_udp_payload" 3)
    contextPoolSize :=
      ← fieldOr defaults.contextPoolSize wide? (field "context_pool_size" 4)
    tcpIdleTimeout :=
      ← fieldOr defaults.tcpIdleTimeout wide?
          (field "tcp_idle_timeout_secs" 5) }

def dns? (value : Value) : Option DnsConfig := do
  let field ← fields? value
  let defaults : DnsConfig := {}
  return {
    servers := ← fieldOr defaults.servers strings? (field "upstream_servers" 0)
    queryTimeout :=
      ← fieldOr defaults.queryTimeout wide? (field "query_timeout" 1)
    retries := ← fieldOr defaults.retries long? (field "retries" 2)
    alwaysTcp := ← fieldOr defaults.alwaysTcp boolean? (field "always_tcp" 3)
    negativeTtl := ← fieldOr defaults.negativeTtl long? (field "negative_ttl" 4)
    cacheMaxEntries :=
      ← fieldOr defaults.cacheMaxEntries wide? (field "cache_max_entries" 5)
    cacheMaxTtl :=
      ← fieldOr defaults.cacheMaxTtl long? (field "cache_max_ttl" 6) }

def logging? (value : Value) : Option LoggingConfig := do
  let field ← fields? value
  let defaults : LoggingConfig := {}
  return {
    level := ← fieldOr defaults.level string? (field "level" 0)
    json := ← fieldOr defaults.json boolean? (field "json" 1) }

def ofValue? (value : Value) : Option Config := do
  let field ← fields? value
  return {
    server := ← fieldOr {} server? (field "server" 0)
    dns := ← fieldOr {} dns? (field "dns" 1)
    logging := ← fieldOr {} logging? (field "logging" 2) }

def parse? (text : List Char) : Option Config := do
  ofValue? (← Toml.parse? text)

inductive FileState where
  | missing
  | directory
  | contents (bytes : Octets)

def noSuchFile : String := "No such file or directory (os error 2)"

def isDirectory : String := "Is a directory (os error 21)"

def notText : String := "stream did not contain valid UTF-8"

def ofFile (path : String) : FileState → Except ConfigError Config
  | .missing => .error (.read path noSuchFile)
  | .directory => .error (.read path isDirectory)
  | .contents bytes =>
      match Text.decode? bytes with
      | none => .error (.read path notText)
      | some text =>
          match parse? text with
          | none => .error (.parse path)
          | some config => .ok config

end Config

structure Overrides where
  dnsPort? : Option UInt16 := none
  bindAddress? : Option String := none
  servers? : Option (List String) := none
  logLevel? : Option String := none

namespace Config

def override (config : Config) (overrides : Overrides) : Config where
  server :=
    { config.server with
      dnsPort := overrides.dnsPort?.getD config.server.dnsPort
      bindAddress := overrides.bindAddress?.getD config.server.bindAddress }
  dns :=
    { config.dns with
      servers := overrides.servers?.getD config.dns.servers }
  logging :=
    { config.logging with
      level := overrides.logLevel?.getD config.logging.level }

/-- The configuration of a file, or the default one without a file, under
overrides. -/
def load (file? : Option (String × FileState)) (overrides : Overrides) :
    Except ConfigError Config := do
  let config ←
    match file? with
    | some (path, file) => ofFile path file
    | none => .ok {}
  return config.override overrides

end Config

end DnsForwarder
