import DnsForwarder.Server.Sockets
import DnsForwarder.Simulation.Session

/-! A server with a listener on a reactor, beside its engine. -/

namespace DnsForwarder.Simulation

structure ListenerSession where
  session : Session
  sockets : Sockets
  endpoint : Endpoint
  listener? : Option Nat := none

namespace ListenerSession

def load (session : ListenerSession) : ListenerSession × Except Error Nat :=
  let (reactor, sockets, result) :=
    session.session.reactor.load () (Sockets.listen session.endpoint)
      session.sockets
  ({ session with session := { session.session with reactor }, sockets },
    result)

def start (session : ListenerSession) : ListenerSession × Except Error Unit :=
  let (session, result) := session.load
  match result with
  | .ok id => ({ session with listener? := some id }, .ok ())
  | .error error => (session, .error error)

def boot (session : ListenerSession) : ListenerSession × Except Error Unit :=
  let (inner, result) := session.session.start
  let session := { session with session := inner }
  match result with
  | .ok () => session.start
  | .error error => (session, .error error)

def stop (session : ListenerSession) : ListenerSession × Bool :=
  match session.listener? with
  | none => (session, false)
  | some id =>
      let (reactor, sockets, stopped) :=
        session.session.reactor.unload id
          (fun _ => Sockets.release session.endpoint) session.sockets
      ({ session with session := { session.session with reactor }, sockets },
        stopped)

def restart (session : ListenerSession) (endpoint : Endpoint) :
    ListenerSession × Except Error Unit :=
  { session with endpoint }.start

end ListenerSession

end DnsForwarder.Simulation
