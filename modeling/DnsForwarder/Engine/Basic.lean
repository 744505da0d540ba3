import DnsForwarder.Cache
import DnsForwarder.Engine.Settings
import DnsForwarder.Message.Response

/-! The state of a resolver engine. Requests for one question share one entry
while its answer is under way. Every attempt to get it has a number, its
generation, that is never used again; the exchange with the server and the alarm
of an attempt carry it. Callers `κ` and their contexts `γ` are opaque. -/

namespace DnsForwarder

inductive Protocol where
  | udp
  | tcp
  deriving DecidableEq, Repr

namespace Protocol

def name : Protocol → String
  | udp => "UDP"
  | tcp => "TCP"

end Protocol

structure Waiter (κ γ : Type) where
  caller : κ
  context : γ
  deriving Repr

structure InFlight (κ γ : Type) where
  question : Question
  query : Octets
  messageId : UInt16
  /-- The position of the server that the current attempt asks. -/
  server : Nat
  protocol : Protocol
  retriesDone : Nat
  /-- The current attempt. -/
  generation : Nat
  waiters : List (Waiter κ γ)
  deriving Repr

/-- A query on its way to a server, until its result is in. -/
structure Exchange where
  generation : Nat
  question : Question
  server : Nat
  protocol : Protocol
  query : Octets
  deriving DecidableEq, Repr

structure Alarm where
  generation : Nat
  question : Question
  due : Nat
  deriving DecidableEq, Repr

/-- Counts without the bound that numbers of 64 bits have. -/
structure Counters where
  queriesSent : Nat := 0
  cacheHits : Nat := 0
  coalesced : Nat := 0
  timeouts : Nat := 0
  deriving DecidableEq, Repr

structure Engine (κ γ : Type) where
  settings : Settings
  /-- The message ids of the queries, by the generation of their first
  attempt. -/
  ids : Nat → UInt16
  started : Bool
  cache : AnswerCache
  inFlight : List (InFlight κ γ)
  /-- The position of the server that the next entry asks first. -/
  nextServer : Nat
  /-- How many attempts have been made. No two attempts ever share a generation,
  as they could where 64 bits came round. -/
  generations : Nat
  counters : Counters
  exchanges : List Exchange
  alarms : List Alarm

structure Delivery (κ γ : Type) where
  waiter : Waiter κ γ
  answer : Answer
  deriving Repr

inductive Resolution (γ : Type) where
  | ready (answer : Answer) (context : γ)
  | pending
  deriving DecidableEq, Repr

structure Flags where
  bypassCache : Bool := false
  cacheOnly : Bool := false
  deriving DecidableEq, Repr

namespace Engine

variable {κ γ : Type}

/-- A new engine, as there is where memory has room for its cache
(`create?`). -/
def create (settings : Settings) (ids : Nat → UInt16) : Engine κ γ where
  settings := settings
  ids := ids
  started := false
  cache := .empty settings.cacheMaxEntries settings.maxTtl
  inFlight := []
  nextServer := 0
  generations := 0
  counters := {}
  exchanges := []
  alarms := []

def create? (memory : Memory) (settings : Settings) (ids : Nat → UInt16) :
    Option (Engine κ γ) :=
  (AnswerCache.empty? memory settings.cacheMaxEntries settings.maxTtl).map
    fun cache => { create settings ids with cache }

def label : String := "resolver-engine"

def entry? (engine : Engine κ γ) (question : Question) :
    Option (InFlight κ γ) :=
  engine.inFlight.find? fun entry => entry.question == question

/-- Puts an entry in the place of the one for its question, or behind all
others. -/
def putEntry (engine : Engine κ γ) (entry : InFlight κ γ) : Engine κ γ :=
  if (engine.entry? entry.question).isSome then
    { engine with
      inFlight := engine.inFlight.map fun old =>
        if old.question == entry.question then entry else old }
  else { engine with inFlight := engine.inFlight ++ [entry] }

def dropEntry (engine : Engine κ γ) (question : Question) : Engine κ γ :=
  { engine with
    inFlight := engine.inFlight.filter fun entry => entry.question != question }

def retire (engine : Engine κ γ) (generation : Nat) : Engine κ γ :=
  { engine with
    exchanges := engine.exchanges.filter fun exchange =>
      exchange.generation != generation
    alarms := engine.alarms.filter fun alarm => alarm.generation != generation }

def initialProtocol (settings : Settings) : Protocol :=
  if settings.alwaysTcp then .tcp else .udp

def following (settings : Settings) (server : Nat) : Nat :=
  (server + 1) % settings.servers.length

/-- Makes a new attempt for an entry, in the place of the one before. -/
def launch (engine : Engine κ γ) (now : Nat) (entry : InFlight κ γ) :
    Engine κ γ :=
  let engine := engine.retire entry.generation
  let generation := engine.generations + 1
  let engine := engine.putEntry { entry with generation }
  { engine with
    generations := generation
    counters :=
      { engine.counters with queriesSent := engine.counters.queriesSent + 1 }
    exchanges :=
      engine.exchanges ++
        [⟨generation, entry.question, entry.server, entry.protocol,
        entry.query⟩]
    alarms :=
      engine.alarms ++
        [⟨generation, entry.question, now + engine.settings.timeout⟩] }

end Engine

end DnsForwarder
