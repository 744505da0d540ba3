import DnsForwarder.CommandLine.Words
import DnsForwarder.Config.Reader
import DnsForwarder.Config.Validation

/-! What a command line asks for. -/

namespace DnsForwarder.CommandLine

inductive Command where
  | serve (port? : Option UInt16) (bind? : Option String)
  | query (name type : String) (noCache : Bool)
  deriving DecidableEq, Repr

structure Invocation where
  config? : Option String
  logLevel? : Option String
  servers : List String
  command : Command
  deriving DecidableEq, Repr

namespace Invocation

def topLevel : Level :=
  ⟨[.config, .logLevel, .server, .help, .version], none⟩

def serveLevel : Level :=
  ⟨[.port, .bind, .help], some 0⟩

def queryLevel : Level :=
  ⟨[.type, .noCache, .help], some 1⟩

def defaultType : String := "A"

def serveOf (given : Given) : Command :=
  .serve ((given.value? .port).bind port?) (given.value? .bind)

def queryOf (given : Given) : Except Interruption Command :=
  match given.operands with
  | name :: _ =>
      .ok (.query name ((given.value? .type).getD defaultType)
          (given.value? .noCache).isSome)
  | [] => .error .misuse

def commandOf : List String → Except Interruption Command
  | "serve" :: rest =>
      (serveLevel.read {} none rest).map fun given => serveOf given.1
  | "query" :: rest => do queryOf (← queryLevel.read {} none rest).1
  | ["help"] | ["help", "serve"] | ["help", "query"] | ["help", "help"] =>
      .error .help
  | _ => .error .misuse

def parse (words : List String) : Except Interruption Invocation := do
  let (given, rest) ← topLevel.read {} none words
  let command ← commandOf rest
  return {
    config? := given.value? .config
    logLevel? := given.value? .logLevel
    servers := given.values .server
    command }

def overrides (invocation : Invocation) : Overrides :=
  let server : Overrides :=
    match invocation.command with
    | .serve port? bind? => { dnsPort? := port?, bindAddress? := bind? }
    | .query _ _ _ => {}
  { server with
    servers? :=
      if invocation.servers.isEmpty then none else some invocation.servers
    logLevel? := invocation.logLevel? }

/-- The configuration that is in force, given what stands under the path of the
configuration file. -/
def configuration (invocation : Invocation) (file : Config.FileState) :
    Except ConfigError Config := do
  let config ← Config.load (invocation.config?.map fun path => (path, file))
      invocation.overrides
  config.validate
  return config

end Invocation

end DnsForwarder.CommandLine
