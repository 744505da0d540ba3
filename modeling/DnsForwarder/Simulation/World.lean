import DnsForwarder.Engine.Lifecycle
import DnsForwarder.Engine.Resolve
import DnsForwarder.Simulation.NameServers

/-! An engine on a virtual clock, with scripted servers. The clock stands still
while calls are made; when it is moved, what has become due by then happens
first, in order of time. Answers are handed to a host, which may make further
calls while it takes them. -/

namespace DnsForwarder.Simulation

def messageIds (attempt : Nat) : UInt16 :=
  UInt16.ofNat (attempt * 40503 + 40503)

structure Host (κ γ σ : Type) where
  deliver : (now : Nat) → Delivery κ γ → Engine κ γ × σ → Engine κ γ × σ
  /-- At most how many further requests come of handing over a context. -/
  followUps : γ → Nat

structure Arrival where
  generation : Nat
  question : Question
  due : Nat
  result : Except Error Octets

structure Sent where
  time : Nat
  server : Option Endpoint
  protocol : Protocol
  query : Octets
  deriving DecidableEq, Repr

structure World (κ γ σ : Type) where
  engine : Engine κ γ
  host : σ
  now : Nat
  nameServers : NameServers
  arrivals : List Arrival
  /-- The last attempt whose query has gone out. -/
  begun : Nat
  sent : List Sent
  history : List Exchange

inductive Due where
  | result (arrival : Arrival)
  | ring (alarm : Alarm)

namespace Due

def time : Due → Nat
  | .result arrival => arrival.due
  | .ring alarm => alarm.due

def generation : Due → Nat
  | .result arrival => arrival.generation
  | .ring alarm => alarm.generation

/-- Order of time, and at one time order of attempts, where the result of an
attempt comes before its alarm. -/
def before (left right : Due) : Bool :=
  left.time < right.time ||
    (left.time == right.time && left.generation ≤ right.generation)

end Due

namespace World

variable {κ γ σ : Type}

def create (engine : Engine κ γ) (host : σ) (nameServers : NameServers) :
    World κ γ σ :=
  ⟨engine, host, 0, nameServers, [], 0, [], []⟩

def deliverAll (world : World κ γ σ) (host : Host κ γ σ)
    (deliveries : List (Delivery κ γ)) :
    World κ γ σ :=
  let (engine, state) :=
    deliveries.foldl (fun state delivery =>
      host.deliver world.now delivery state) (world.engine, world.host)
  { world with engine, host := state }

def apply (world : World κ γ σ) (host : Host κ γ σ)
    (step : Engine κ γ × List (Delivery κ γ)) :
    World κ γ σ :=
  { world with engine := step.1 }.deliverAll host step.2

def unsent? (world : World κ γ σ) : Option Exchange :=
  world.engine.exchanges.find? fun exchange => world.begun < exchange.generation

/-- Sends the query of an exchange. A reply without delay is there at once. -/
def send (world : World κ γ σ) (host : Host κ γ σ) (exchange : Exchange) :
    World κ γ σ :=
  let reply := world.nameServers world.history exchange
  let server? := world.engine.settings.servers[exchange.server]?
  let sent : Sent := ⟨world.now, server?, exchange.protocol, exchange.query⟩
  let world :=
    { world with
      begun := exchange.generation
      sent := world.sent ++ [sent]
      history := world.history ++ [exchange] }
  match reply.result? exchange.query with
  | none => world
  | some result =>
      if reply.delay = 0 then
        world.apply host
          (world.engine.onResult world.now exchange.question
            exchange.generation result)
      else
        let arrival : Arrival :=
          ⟨exchange.generation, exchange.question,
            world.now + reply.delay, result⟩
        { world with arrivals := world.arrivals ++ [arrival] }

def dues (world : World κ γ σ) : List Due :=
  let awaited := world.arrivals.filter fun arrival =>
    world.engine.exchanges.any fun exchange =>
      exchange.generation == arrival.generation
  awaited.map .result ++ world.engine.alarms.map .ring

/-- The next thing that is due by `limit`, among attempts whose queries have
gone out. -/
def nextDue? (world : World κ γ σ) (limit : Nat) : Option Due :=
  let near := world.dues.filter fun due => due.time ≤ limit &&
    due.generation ≤ world.begun
  match near with
  | [] => none
  | first :: rest =>
      some (rest.foldl (fun best due =>
        if best.before due then best else due) first)

def meet (world : World κ γ σ) (host : Host κ γ σ) (due : Due) : World κ γ σ :=
  let world := { world with now := max world.now due.time }
  match due with
  | .result arrival =>
      let world :=
        { world with
          arrivals := world.arrivals.filter fun other =>
            other.generation != arrival.generation }
      world.apply host
        (world.engine.onResult world.now arrival.question arrival.generation
          arrival.result)
  | .ring alarm =>
      world.apply host
        (world.engine.onAlarm world.now alarm.question alarm.generation)

/-- The world after the next piece of work that is due by `limit`, if there is
one. What is due now comes first, then queries that have not gone out yet, and
then the clock moves on: a query that follows from something goes out only after
all else that was due at the same time. -/
def work? (world : World κ γ σ) (host : Host κ γ σ) (limit : Nat) :
    Option (World κ γ σ) :=
  match world.nextDue? world.now with
  | some due => some (world.meet host due)
  | none =>
      match world.unsent? with
      | some exchange => some (world.send host exchange)
      | none => (world.nextDue? limit).map (world.meet host)

def workOff (host : Host κ γ σ) (limit : Nat) :
    (steps : Nat) → World κ γ σ → World κ γ σ
  | 0, world => world
  | steps + 1, world =>
      match world.work? host limit with
      | some world => workOff host limit steps world
      | none => world

/-- More pieces of work than there can be before every entry is settled: each
attempt is sent, answered and given up at most once, and an entry makes at most
two attempts for each of its tries. -/
def workBound (world : World κ γ σ) (host : Host κ γ σ) : Nat :=
  let waiting := world.engine.inFlight.flatMap fun entry => entry.waiters
  let followUps :=
    waiting.foldr (fun waiter rest => host.followUps waiter.context + rest) 0
  let entries := world.engine.inFlight.length + followUps
  6 * (world.engine.settings.retries + 1) * entries + 1

def advance (world : World κ γ σ) (host : Host κ γ σ) (ms : Nat) :
    World κ γ σ :=
  let limit := world.now + ms
  let world := workOff host limit (world.workBound host) world
  { world with now := limit }

def start (world : World κ γ σ) : Except Error (World κ γ σ) :=
  world.engine.start.map fun engine => { world with engine }

def stop (world : World κ γ σ) (host : Host κ γ σ) : World κ γ σ :=
  world.apply host world.engine.stop

end World

end DnsForwarder.Simulation
