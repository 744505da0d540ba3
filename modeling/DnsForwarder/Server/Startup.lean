import DnsForwarder.Engine.Lifecycle
import DnsForwarder.Reactor.Dispatcher
import DnsForwarder.Server.Handler
import DnsForwarder.Server.Sockets

/-! How a server is started from its configuration. An engine and, behind it, a
listener are loaded onto the reactor of a dispatcher; so the listener is stopped
first. -/

namespace DnsForwarder

abbrev ServerEngine := Engine (Party Empty) QueryContext

structure Listener where
  server : Server
  endpoint : Endpoint
  bound? : Option Endpoint

namespace Listener

variable {μ : Type}

def create? (memory : Memory) (config : ServerConfig) (endpoint : Endpoint) :
    Option Listener := do
  let pool ← ContextPool.create? memory config.contextPoolSize.toNat
  let server : Server :=
    { pool
      recursionAvailable := config.recursionAvailable
      maxUdpPayload := config.maxUdpPayload
      hooked := false }
  return { server, endpoint, bound? := none }

def start (network : Network μ) (listener : Listener) (machine : μ) :
    Except Error (μ × Listener) := do
  let (machine, bound) ← network.listen listener.endpoint machine
  return (machine, { listener with bound? := some bound })

end Listener

/-- What one start has made: an engine, and a listener unless its sockets could
not be had. -/
structure Station where
  engine : ServerEngine
  listener? : Option Listener := none

def Station.stopEngine (station : Station) : Station :=
  let (engine, deliveries) := station.engine.stop
  let reply (server : Server) (delivery : Delivery (Party Empty) QueryContext) :
      Server :=
    server.answerDelivered delivery.waiter.context delivery.answer
  { engine
    listener? := station.listener?.map fun listener =>
      { listener with server := deliveries.foldl reply listener.server } }

/-- What a reactor stops on its own: an engine or a listener, by the number of
its station. -/
inductive ServerPart where
  | engine (station : Nat)
  | listener (station : Nat)
  deriving DecidableEq, Repr

structure Premises (μ : Type) where
  machine : μ
  stations : List Station := []

namespace Premises

variable {μ : Type}

def addEngine (engine : ServerEngine) (premises : Premises μ) :
    Except Error (Premises μ) :=
  engine.start.map fun engine =>
    { premises with stations := premises.stations ++ [{ engine }] }

def addListener (network : Network μ) (station : Nat) (listener : Listener)
    (premises : Premises μ) : Except Error (Premises μ) := do
  let (machine, listener) ← listener.start network premises.machine
  return {
    machine
    stations := premises.stations.modify station fun station =>
      { station with listener? := some listener } }

def bound? (premises : Premises μ) (station : Nat) : Option Endpoint := do
  (← (← premises.stations[station]?).listener?).bound?

def stop (network : Network μ) (part : ServerPart) (premises : Premises μ) :
    Premises μ :=
  match part with
  | .engine station =>
      { premises with stations := premises.stations.modify station .stopEngine }
  | .listener station =>
      match premises.bound? station with
      | none => premises
      | some endpoint =>
          { premises with machine := network.release endpoint premises.machine }

end Premises

abbrev Site (μ : Type) := Reactor ServerPart × Premises μ

def notBound : Error := .startFailed "DNS listener is not bound"

inductive StartFailure where
  | config (error : ConfigError)
  | badAddress
  | refused (error : Error)
  /-- Memory had no room for the cache or for the slots. The process has
  ended. -/
  | noRoom
  deriving DecidableEq, Repr

/-- What is printed of a failure. A process that has ended prints nothing. -/
def StartFailure.message : StartFailure → String
  | .config error => error.message
  | .badAddress => "invalid IP address syntax"
  | .refused error => error.message
  | .noRoom => ""

def loadListener {μ : Type} (network : Network μ) (station : Nat)
    (listener : Listener) (site : Site μ) : Site μ × Except Error Endpoint :=
  let (reactor, premises) := site
  let add := Premises.addListener network station listener
  match reactor.load (.listener station) add premises with
  | (reactor, premises, .error error) => ((reactor, premises), .error error)
  | (reactor, premises, .ok _) =>
      match premises.bound? station with
      | none => ((reactor, premises), .error notBound)
      | some endpoint => ((reactor, premises), .ok endpoint)

/-- Makes an engine and loads it, and then a listener. An engine stays where its
listener does not start. -/
def loadParts {μ : Type} (memory : Memory) (network : Network μ)
    (settings : Settings) (ids : Nat → UInt16) (config : ServerConfig)
    (endpoint : Endpoint) (site : Site μ) :
    Site μ × Except StartFailure Endpoint :=
  let (reactor, premises) := site
  let station := premises.stations.length
  match Engine.create? memory settings ids with
  | none => (site, .error .noRoom)
  | some engine =>
      let add := Premises.addEngine engine
      match reactor.load (.engine station) add premises with
      | (reactor, premises, .error error) =>
          ((reactor, premises), .error (.refused error))
      | (reactor, premises, .ok _) =>
          match Listener.create? memory config endpoint with
          | none => ((reactor, premises), .error .noRoom)
          | some listener =>
              let (site, result) :=
                loadListener network station listener (reactor, premises)
              (site, result.mapError .refused)

/-- Starts a server on a dispatcher, from another thread than that of its
reactor. The message ids of the engine are `ids`. -/
def startServer {μ : Type} (memory : Memory) (network : Network μ)
    (ids : Nat → UInt16) (config : Config)
    (dispatcher : Dispatcher ServerPart (Premises μ)) :
    Dispatcher ServerPart (Premises μ) × Except StartFailure Endpoint :=
  match Settings.ofConfig config.dns with
  | .error error => (dispatcher, .error (.config error))
  | .ok settings =>
      match IpAddress.parse? config.server.bindAddress.toList with
      | none => (dispatcher, .error .badAddress)
      | some address =>
          let endpoint := Endpoint.ofAddress config.server.dnsPort address
          let load :=
            loadParts memory network settings ids config.server endpoint
          match dispatcher.call (Premises.stop network) load with
          | (dispatcher, .ok result) => (dispatcher, result)
          | (dispatcher, .error error) => (dispatcher, .error (.refused error))

end DnsForwarder
