import DnsForwarder.Simulation.ClientWorld
import DnsForwarder.Simulation.Components

/-! The components of one reactor: some that only have names, and clients with
their engines. -/

namespace DnsForwarder.Simulation

inductive Resident where
  | component (component : Component)
  | engine (client : Nat)
  | client (client : Nat)
  deriving DecidableEq, Repr

structure Household where
  log : List String := []
  worlds : List ClientWorld := []

namespace Household

def change (household : Household) (client : Nat)
    (act : ClientWorld → Except Error ClientWorld) :
    Except Error Household :=
  match household.worlds[client]? with
  | none => .ok household
  | some world =>
      (act world).map fun world =>
        { household with worlds := household.worlds.set client world }

def update (household : Household) (client : Nat)
    (act : ClientWorld → ClientWorld) : Household :=
  { household with worlds := household.worlds.modify client act }

def start (resident : Resident) (household : Household) :
    Except Error Household :=
  match resident with
  | .component component =>
      (component.start household.log).map fun log => { household with log }
  | .engine client => household.change client World.start
  | .client client => household.change client ClientWorld.startClient

def stop (resident : Resident) (household : Household) : Household :=
  match resident with
  | .component component =>
      { household with log := component.stop household.log }
  | .engine client => household.update client ClientWorld.stopEngine
  | .client client => household.update client ClientWorld.stopClient

def add (household : Household) (world : ClientWorld) : Household :=
  { household with worlds := household.worlds ++ [world] }

end Household

def Resident.load (resident : Resident) (reactor : Reactor Resident)
    (household : Household) :
    Reactor Resident × Household × Except Error Nat :=
  reactor.load resident (Household.start resident) household

def Resident.unload (id : Nat) (reactor : Reactor Resident)
    (household : Household) :
    Reactor Resident × Household × Bool :=
  reactor.unload id Household.stop household

end DnsForwarder.Simulation
