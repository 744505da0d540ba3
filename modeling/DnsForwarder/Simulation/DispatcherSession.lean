import DnsForwarder.Reactor.Dispatcher
import DnsForwarder.Simulation.Household

/-! A dispatcher with named components and clients. Calls are made from outside
of its thread, one after the other, and the thread goes on as far as it can in
between. -/

namespace DnsForwarder.Simulation

structure Spawned where
  position : Nat
  clientId : Nat
  engineId : Nat
  deriving DecidableEq, Repr

structure DispatcherSession where
  dispatcher : Dispatcher Resident Household
  settings : Settings
  nameServers : NameServers
  /-- The number of each component that was to be loaded, if it was. -/
  loads : List (Option Nat) := []
  spawned? : Option Spawned := none

namespace DispatcherSession

abbrev Hall := Reactor Resident × Household

def create (name : String) (settings : Settings) (nameServers : NameServers) :
    DispatcherSession where
  dispatcher := .create name {}
  settings := settings
  nameServers := nameServers

def call {α : Type} (session : DispatcherSession) (task : Hall → Hall × α) :
    DispatcherSession × Except Error α :=
  let (dispatcher, result) := session.dispatcher.call Household.stop task
  ({ session with dispatcher }, result)

def callOr {α : Type} (session : DispatcherSession)
    (task : Hall → Hall × Except Error α) :
    DispatcherSession × Except Error α :=
  let (session, result) := session.call task
  (session, result.bind fun inner => inner)

def ask {α : Type} (session : DispatcherSession) (look : Reactor Resident → α) :
    DispatcherSession × Except Error α :=
  session.call fun hall => (hall, look hall.1)

def greet (session : DispatcherSession) (value : Int) :
    DispatcherSession × Except Error String :=
  session.ask fun reactor =>
    s!"{reactor.name}:{session.dispatcher.name}:{value}"

def count (session : DispatcherSession) :
    DispatcherSession × Except Error Nat :=
  session.ask Reactor.count

def timer (session : DispatcherSession) :
    DispatcherSession × Except Error String :=
  session.ask Reactor.name

def logTask (line : String) (hall : Hall) : Hall :=
  (hall.1, { hall.2 with log := hall.2.log ++ [line] })

def execute (session : DispatcherSession) (tags : List String) :
    DispatcherSession × Except Error Unit :=
  let queue (dispatcher : Dispatcher Resident Household) (tag : String) :=
    dispatcher.execute (logTask s!"ran {tag}")
  let queued := tags.foldlM queue session.dispatcher
  match queued with
  | .error error => (session, .error error)
  | .ok dispatcher =>
      ({ session with dispatcher := dispatcher.turn Household.stop }, .ok ())

def loadTask (resident : Resident) (hall : Hall) : Hall × Except Error Nat :=
  let (reactor, household, result) := resident.load hall.1 hall.2
  ((reactor, household), result)

def unloadTask (id : Nat) (hall : Hall) : Hall × Bool :=
  let (reactor, household, stopped) := Resident.unload id hall.1 hall.2
  ((reactor, household), stopped)

def load (session : DispatcherSession) (component : Component) :
    DispatcherSession × Except Error Unit :=
  let (session, result) := session.callOr (loadTask (.component component))
  ({ session with loads := session.loads ++ [result.toOption] },
    result.map fun _ => ())

def unload (session : DispatcherSession) (position : Nat) :
    DispatcherSession × Except Error (Option Bool) :=
  session.call fun hall =>
    match session.loads[position]?.join with
    | none => (hall, none)
    | some id =>
        let (hall, stopped) := unloadTask id hall
        (hall, some stopped)

/-- Calls that the thread of the reactor makes to itself, and would wait for
itself in. -/
def nested (session : DispatcherSession) :
    DispatcherSession × Except Error (Error × Error) :=
  let refusal (call : String) := session.dispatcher.blockingError call
  session.ask fun _ => (refusal "call", refusal "wait_stopped")

def stop (session : DispatcherSession) : DispatcherSession :=
  { session with dispatcher := session.dispatcher.stop }

/-- Lets the reactor stop itself and then try to load a component. -/
def stopThenLoad (session : DispatcherSession) :
    DispatcherSession × Except Error (Bool × Except Error Nat) :=
  session.call fun hall =>
    let (hall, result) :=
      loadTask (.component ⟨"late", false⟩) (hall.1.stop, hall.2)
    (hall, (hall.1.stopping, result))

def turn (session : DispatcherSession) : DispatcherSession :=
  { session with dispatcher := session.dispatcher.turn Household.stop }

def wait (session : DispatcherSession) : DispatcherSession × Bool :=
  let session := session.turn
  (session, session.dispatcher.isStopped)

/-- Loads an engine and a client for it. The engine does not stay without its
client. -/
def spawnTask (world : ClientWorld) (hall : Hall) :
    Hall × Except Error Spawned :=
  let position := hall.2.worlds.length
  match loadTask (.engine position) (hall.1, hall.2.add world) with
  | (hall, .error error) => (hall, .error error)
  | (hall, .ok engineId) =>
      match loadTask (.client position) hall with
      | (hall, .ok clientId) => (hall, .ok ⟨position, clientId, engineId⟩)
      | (hall, .error error) => ((unloadTask engineId hall).1, .error error)

def spawn (session : DispatcherSession) :
    DispatcherSession × Except Error Unit :=
  let world := ClientWorld.ofSettings session.settings session.nameServers
  let (session, result) := session.callOr (spawnTask world)
  match result with
  | .error error => (session, .error error)
  | .ok spawned => ({ session with spawned? := some spawned }, .ok ())

def household (session : DispatcherSession) : Household :=
  session.dispatcher.state

def setHousehold (session : DispatcherSession) (household : Household) :
    DispatcherSession :=
  { session with dispatcher := { session.dispatcher with state := household } }

def resolve (session : DispatcherSession) (question : Question)
    (flags : Flags) :
    DispatcherSession × Option ClientReply :=
  let session := session.turn
  match session.spawned? with
  | none => (session, none)
  | some spawned =>
      match session.household.worlds[spawned.position]? with
      | none => (session, none)
      | some world =>
          let (world, reply) := world.ask question flags
          let household :=
            session.household.update spawned.position fun _ => world
          (session.setHousehold household, some reply)

/-- Shuts the client down and lets the reactor unload it together with its
engine; answers whether there is a client. -/
def shutdownClient (session : DispatcherSession) : DispatcherSession × Bool :=
  match session.spawned? with
  | none => (session, false)
  | some spawned =>
      let close (world : ClientWorld) := world.setClient world.client.shutdown
      let session :=
        session.setHousehold (session.household.update spawned.position close)
      let (session, _) := session.call fun hall =>
        let (hall, _) := unloadTask spawned.clientId hall
        let (hall, _) := unloadTask spawned.engineId hall
        (hall, ())
      (session, true)

def log (session : DispatcherSession) : List String :=
  session.household.log

def clearLog (session : DispatcherSession) : DispatcherSession :=
  session.setHousehold { session.household with log := [] }

end DispatcherSession

end DnsForwarder.Simulation
