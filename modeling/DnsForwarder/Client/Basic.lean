import DnsForwarder.Client.Adapter

/-! Clients make requests from any thread and get futures for the answers.
Requests reach the engine over a bridge; a shutdown ends the bridge first and is
seen by everyone after that. -/

namespace DnsForwarder

structure Client (κ : Type) where
  adapter : ClientAdapter κ
  bridge : Bridge ClientRequest := {}
  isShutdown : Bool := false
  futures : Nat := 0

namespace Client

variable {κ : Type}

def create (caller : κ) : Client κ :=
  { adapter := { caller } }

def failed (client : Client κ) (error : Error) : Client κ × Nat :=
  let adapter := client.adapter.resolve client.futures (.error error)
  ({ client with futures := client.futures + 1, adapter }, client.futures)

def enqueue (client : Client κ) (question : Question) (flags : Flags) :
    Client κ × Nat :=
  match client.bridge.produce ⟨question, flags, client.futures⟩ with
  | .error _ => client.failed .clientShutdown
  | .ok bridge =>
      ({ client with bridge, futures := client.futures + 1 }, client.futures)

def request (client : Client κ) (question : Question) (flags : Flags) :
    Client κ × Nat :=
  if client.isShutdown then client.failed .clientShutdown
  else client.enqueue question flags

/-- Ends the bridge; requests that are still on it will not be answered. -/
def closeBridge (client : Client κ) : Client κ :=
  let (bridge, discarded) := client.bridge.close
  { client with
    bridge
    adapter := client.adapter.abandon (discarded.map ClientRequest.future) }

def shutdown (client : Client κ) : Client κ :=
  if client.isShutdown then client
  else { client.closeBridge with isShutdown := true }

def reply? (client : Client κ) (future : Nat) : Option ClientReply :=
  client.adapter.resolved.lookup future

def start (client : Client κ) : Except Error (Client κ) :=
  client.bridge.start.map fun bridge => { client with bridge }

/-- Lets the task behind the bridge go on until it waits. -/
def work (client : Client κ) (engine : Engine κ Nat) (now : Nat) :
    Client κ × Engine κ Nat :=
  let wakes := client.bridge.items.length + 2
  let (bridge, adapter, engine) :=
    Bridge.work (ClientAdapter.drainAll now) wakes client.bridge
      (client.adapter, engine)
  ({ client with bridge, adapter }, engine)

def stop [DecidableEq κ] (client : Client κ) (engine : Engine κ Nat) :
    Client κ × Engine κ Nat :=
  let client := { client.closeBridge with isShutdown := true }
  let bridge := (client.bridge.stop).1
  let (adapter, engine) := client.adapter.stop engine
  ({ client with bridge, adapter }, engine)

end Client

end DnsForwarder
