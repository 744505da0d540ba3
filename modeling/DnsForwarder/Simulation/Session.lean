import DnsForwarder.Reactor.Basic
import DnsForwarder.Simulation.Desk

/-! An engine on a reactor, with a server and named guests on a virtual
clock. -/

namespace DnsForwarder.Simulation

structure Session where
  reactor : Reactor Unit
  world : World (Party String) (Parcel Ticket) Desk
  last? : Option Nat

namespace Session

def create (settings : Settings) (nameServers : NameServers) (server : Server) :
    Session where
  reactor := .create "sim"
  world := .create (.create settings messageIds) ⟨server, []⟩ nameServers
  last? := none

def engine (session : Session) : Desk.SharedEngine :=
  session.world.engine

def server (session : Session) : Server :=
  session.world.host.server

def start (session : Session) : Session × Except Error Unit :=
  let (reactor, world, result) :=
    session.reactor.load () World.start session.world
  match result with
  | .ok id => (⟨reactor, world, some id⟩, .ok ())
  | .error error => (⟨reactor, world, session.last?⟩, .error error)

def stop (session : Session) : Session × Bool :=
  match session.last? with
  | none => (session, false)
  | some id =>
      let (reactor, world, stopped) :=
        session.reactor.unload id (fun _ world => world.stop Desk.host)
          session.world
      (⟨reactor, world, session.last?⟩, stopped)

def advance (session : Session) (ms : Nat) : Session :=
  { session with world := session.world.advance Desk.host ms }

def resolve (session : Session) (caller : String) (request : Request) :
    Session × Outcome :=
  let world := session.world
  let (engine, outcome) :=
    request.perform .guest world.now world.engine (.guest caller)
  ({ session with world := { world with engine } }, outcome)

def cancel (session : Session) (caller : String) : Session × Nat :=
  let (engine, waiters) := session.world.engine.cancel (.guest caller)
  ({ session with world := { session.world with engine } }, waiters.length)

def lookup (session : Session) (question : Question) :
    Session × Option Answer :=
  let (engine, answer?) :=
    session.world.engine.lookup session.world.now question
  ({ session with world := { session.world with engine } }, answer?)

def cachedTtl? (session : Session) (question : Question) : Option Nat :=
  session.world.engine.cachedTtl? session.world.now question

/-- Hands a message to the server; nothing happens to bytes that are no
message. -/
def request? (session : Session) (bytes : Octets) (responder : Responder) :
    Option (Session × Except Error Unit) := do
  let message ← Message.decode? bytes
  let world := session.world
  let (engine, server, result) :=
    world.host.server.handle .query world.engine world.now message responder
  let host := { world.host with server }
  return ({ session with world := { world with engine, host } }, result)

def clearRecords (session : Session) : Session :=
  let desk := session.world.host
  let server := { desk.server with handed := [], reports := [] }
  { session with
    world := { session.world with host := ⟨server, []⟩, sent := [] } }

end Session

end DnsForwarder.Simulation
