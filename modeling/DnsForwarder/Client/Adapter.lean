import DnsForwarder.Engine.Resolve
import DnsForwarder.Reactor.Bridge

/-! The half of a client that lives beside the engine. Each request gets a
token, under which the answer of the engine finds the future that waits for
it. -/

namespace DnsForwarder

abbrev ClientReply := Except Error Answer

structure ClientRequest where
  question : Question
  flags : Flags
  future : Nat
  deriving DecidableEq, Repr

structure ClientAdapter (κ : Type) where
  caller : κ
  /-- Goes on for ever, where a number of 64 bits comes round in the end. -/
  nextToken : Nat := 0
  /-- The future that waits under each token. -/
  pending : List (Nat × Nat) := []
  resolved : List (Nat × ClientReply) := []

namespace ClientAdapter

variable {κ : Type}

def resolve (adapter : ClientAdapter κ) (future : Nat) (reply : ClientReply) :
    ClientAdapter κ :=
  { adapter with resolved := adapter.resolved ++ [(future, reply)] }

/-- Resolves futures whose requests will not be answered. -/
def abandon (adapter : ClientAdapter κ) (futures : List Nat) :
    ClientAdapter κ :=
  futures.foldl (fun adapter future =>
    adapter.resolve future (.error .clientShutdown)) adapter

def reply (adapter : ClientAdapter κ) (token : Nat) (reply : ClientReply) :
    ClientAdapter κ :=
  match adapter.pending.lookup token with
  | none => adapter
  | some future =>
      let pending := adapter.pending.filter fun entry => entry.1 != token
      { adapter with pending }.resolve future reply

/-- Makes a request to the engine. What the engine settles at once is replied at
once. -/
def submit (adapter : ClientAdapter κ) (engine : Engine κ Nat) (now : Nat)
    (request : ClientRequest) : ClientAdapter κ × Engine κ Nat :=
  let token := adapter.nextToken
  let adapter :=
    { adapter with
      nextToken := token + 1
      pending := adapter.pending ++ [(token, request.future)] }
  match engine.resolve now request.question adapter.caller token
    request.flags with
  | (engine, .ok .pending) => (adapter, engine)
  | (engine, .ok (.ready answer _)) =>
      (adapter.reply token (.ok answer), engine)
  | (engine, .error error) => (adapter.reply token (.error error), engine)

def drainOne (now : Nat) (bridge : Bridge ClientRequest)
    (state : ClientAdapter κ × Engine κ Nat) :
    Bridge ClientRequest × ClientAdapter κ × Engine κ Nat :=
  match bridge.consume with
  | (bridge, none) => (bridge, state)
  | (bridge, some request) => (bridge, state.1.submit state.2 now request)

def drain (now : Nat) :
    (count : Nat) → Bridge ClientRequest → ClientAdapter κ × Engine κ Nat →
    Bridge ClientRequest × ClientAdapter κ × Engine κ Nat
  | 0, bridge, state => (bridge, state)
  | count + 1, bridge, state =>
      let (bridge, state) := drainOne now bridge state
      drain now count bridge state

def drainAll (now : Nat) (bridge : Bridge ClientRequest)
    (state : ClientAdapter κ × Engine κ Nat) :
    Bridge ClientRequest × ClientAdapter κ × Engine κ Nat :=
  drain now bridge.items.length bridge state

def answerDelivered (adapter : ClientAdapter κ) (delivery : Delivery κ Nat) :
    ClientAdapter κ :=
  adapter.reply delivery.waiter.context (.ok delivery.answer)

/-- Withdraws all requests; none of them will be answered. -/
def stop [DecidableEq κ] (adapter : ClientAdapter κ) (engine : Engine κ Nat) :
    ClientAdapter κ × Engine κ Nat :=
  let waiting := adapter.pending.map Prod.snd
  ({ adapter with pending := [] }.abandon waiting,
    (engine.cancel adapter.caller).1)

end ClientAdapter

end DnsForwarder
