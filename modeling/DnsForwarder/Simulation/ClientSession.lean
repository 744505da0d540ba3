import DnsForwarder.Simulation.Household

/-! A client that was installed beside an engine on one reactor. -/

namespace DnsForwarder.Simulation

structure ClientSession where
  reactor : Reactor Resident
  household : Household
  engineId? : Option Nat := none
  /-- The number of the client, until it has been unloaded. -/
  clientId? : Option Nat := none
  held : List Nat := []

namespace ClientSession

def position : Nat := 0

def create (settings : Settings) (nameServers : NameServers) :
    ClientSession where
  reactor := .create "sim"
  household := { worlds := [.ofSettings settings nameServers] }

def world? (session : ClientSession) : Option ClientWorld :=
  session.household.worlds[position]?

def isShutdown (session : ClientSession) : Bool :=
  session.world?.any fun world => world.client.isShutdown

def update (session : ClientSession) (act : ClientWorld → ClientWorld) :
    ClientSession :=
  { session with household := session.household.update position act }

def startEngine (session : ClientSession) : ClientSession × Except Error Unit :=
  let (reactor, household, result) :=
    (Resident.engine position).load session.reactor session.household
  let session := { session with reactor, household }
  match result with
  | .ok id => ({ session with engineId? := some id }, .ok ())
  | .error error => (session, .error error)

def stopEngine (session : ClientSession) : ClientSession × Bool :=
  match session.engineId? with
  | none => (session, false)
  | some id =>
      let (reactor, household, stopped) :=
        Resident.unload id session.reactor session.household
      ({ session with reactor, household }, stopped)

def install (session : ClientSession) : Except Error ClientSession :=
  let (reactor, household, result) :=
    (Resident.client position).load session.reactor session.household
  result.map fun id => { session with reactor, household, clientId? := some id }

/-- Makes a request, or one that fails at once if it has no question, and holds
the future. -/
def request (session : ClientSession) (question : Except Error Question)
    (flags : Flags) :
    ClientSession × Nat :=
  match session.world? with
  | none => (session, 0)
  | some world =>
      let (client, future) :=
        match question with
        | .error error => world.client.failed error
        | .ok question => world.client.request question flags
      let held := session.held ++ [future]
      ({ session.update (fun world => world.setClient client) with held },
        future)

def shutdown (session : ClientSession) : ClientSession :=
  session.update fun world => world.setClient world.client.shutdown

def drop (session : ClientSession) (future : Nat) : ClientSession × Bool :=
  ({ session with held := session.held.filter fun held => held != future },
    session.held.contains future)

def collect (session : ClientSession) :
    ClientSession × List (Nat × ClientReply) :=
  let reply? (future : Nat) : Option ClientReply := do
    (← session.world?).client.reply? future
  let done := session.held.filterMap fun future =>
    (reply? future).map fun reply => (future, reply)
  ({ session with
     held := session.held.filter fun future => (reply? future).isNone }, done)

/-- Unloads a client that was asked to shut down. -/
def retire (session : ClientSession) : ClientSession :=
  match session.clientId? with
  | none => session
  | some id =>
      if session.isShutdown then
        let (reactor, household, _) :=
          Resident.unload id session.reactor session.household
        { session with reactor, household, clientId? := none }
      else session

/-- Moves the clock; the client goes first, and then what has become due. -/
def advance (session : ClientSession) (ms : Nat) : ClientSession :=
  let session := (session.update ClientWorld.wake).retire
  session.update fun world => World.advance world ClientWorld.clientHost ms

def cancel (session : ClientSession) (caller : String) : ClientSession × Nat :=
  let count :=
    (session.world?.map fun world =>
      (world.engine.cancel (some caller)).2.length).getD 0
  (session.update fun world =>
    { world with engine := (world.engine.cancel (some caller)).1 }, count)

def lookup (session : ClientSession) (question : Question) :
    ClientSession × Option Answer :=
  let look (world : ClientWorld) := world.engine.lookup world.now question
  (session.update fun world => { world with engine := (look world).1 },
    session.world?.bind fun world => (look world).2)

def cachedTtl? (session : ClientSession) (question : Question) : Option Nat :=
  session.world?.bind fun world => world.engine.cachedTtl? world.now question

def clearRecords (session : ClientSession) : ClientSession :=
  session.update fun world => { world with sent := [] }

end ClientSession

end DnsForwarder.Simulation
