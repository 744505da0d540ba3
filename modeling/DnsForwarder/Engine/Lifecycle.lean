import DnsForwarder.Engine.Attempt

/-! Starting and stopping an engine. -/

namespace DnsForwarder.Engine

variable {κ γ : Type}

def noServers : String := "resolver engine has no upstream servers"

def start (engine : Engine κ γ) : Except Error (Engine κ γ) :=
  if engine.settings.servers = [] then .error (.startFailed noServers)
  else .ok { engine with started := true }

/-- Forgets all answers and all attempts; every waiter gets a failure. Counters
go on. The entries are answered in the order in which they began, though nobody
is promised any order among them. -/
def stop (engine : Engine κ γ) : Engine κ γ × List (Delivery κ γ) :=
  ({ engine with
      started := false
      cache := engine.cache.clear
      inFlight := []
      exchanges := []
      alarms := [] },
    engine.inFlight.flatMap fun entry =>
      deliveries entry.waiters (.failure .error 0 entry.question))

end DnsForwarder.Engine
