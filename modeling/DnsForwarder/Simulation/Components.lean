import DnsForwarder.Reactor.Basic

/-! Components that have names and write down when they start and stop. -/

namespace DnsForwarder.Simulation

structure Component where
  name : String
  fails : Bool
  deriving DecidableEq, Repr

namespace Component

def start (component : Component) (log : List String) :
    Except Error (List String) :=
  if component.fails then .error (.startFailed component.name)
  else .ok (log ++ [s!"start {component.name}"])

def stop (component : Component) (log : List String) : List String :=
  log ++ [s!"stop {component.name}"]

end Component

end DnsForwarder.Simulation
