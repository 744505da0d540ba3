import DnsForwarder.Client.Basic
import DnsForwarder.Simulation.World

/-! A client and its engine on a virtual clock. -/

namespace DnsForwarder.Simulation

/-- An engine that is asked by a client, which has no name, and perhaps by
others, which have. -/
abbrev ClientWorld := World (Option String) Nat (Client (Option String))

namespace ClientWorld

def deliver (_now : Nat) (delivery : Delivery (Option String) Nat)
    (state : Engine (Option String) Nat × Client (Option String)) :
    Engine (Option String) Nat × Client (Option String) :=
  let (engine, client) := state
  (engine, { client with adapter := client.adapter.answerDelivered delivery })

def clientHost : Host (Option String) Nat (Client (Option String)) :=
  ⟨deliver, fun _ => 0⟩

def ofSettings (settings : Settings) (nameServers : NameServers) :
    ClientWorld :=
  .create (.create settings messageIds) (.create none) nameServers

def client (world : ClientWorld) : Client (Option String) :=
  world.host

def setClient (world : ClientWorld) (client : Client (Option String)) :
    ClientWorld :=
  { world with host := client }

def stopEngine (world : ClientWorld) : ClientWorld :=
  World.stop world clientHost

def startClient (world : ClientWorld) : Except Error ClientWorld :=
  world.client.start.map world.setClient

def stopClient (world : ClientWorld) : ClientWorld :=
  let (client, engine) := world.client.stop world.engine
  { world with engine, host := client }

def wake (world : ClientWorld) : ClientWorld :=
  let (client, engine) := world.client.work world.engine world.now
  { world with engine, host := client }

/-- Moves the clock by as much as the engine needs at most to settle all that is
under way. -/
def settleAll (world : ClientWorld) : ClientWorld :=
  let settings := world.engine.settings
  let limit := world.now + 2 * (settings.retries + 1) * settings.timeout
  World.workOff clientHost limit (World.workBound world clientHost) world

def ask (world : ClientWorld) (question : Question) (flags : Flags) :
    ClientWorld × ClientReply :=
  let (client, future) := world.client.request question flags
  let world := (world.setClient client).wake.settleAll
  (world, (world.client.reply? future).getD (.error .clientShutdown))

end ClientWorld

end DnsForwarder.Simulation
