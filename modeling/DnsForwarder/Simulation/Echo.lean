import DnsForwarder.Reactor.Basic
import DnsForwarder.Reactor.Bridge

/-! A bridge of numbers whose handler takes some of them at each wake-up and
answers small ones with the number that follows. -/

namespace DnsForwarder.Simulation

structure Echo where
  reactor : Reactor Unit
  bridge : Bridge Int
  limit? : Option Nat := none
  /-- Numbers below this one are answered; without it none is. -/
  below? : Option Int := none
  wakes : List (List Int) := []
  last? : Option Nat := none

namespace Echo

def followers (below? : Option Int) (item : Int) : Nat :=
  match below? with
  | none => 0
  | some below => (below - item).toNat

def total (below? : Option Int) (items : List Int) : Nat :=
  items.foldr (fun item rest => 1 + followers below? item + rest) 0

def takeItems (below? : Option Int) :
    (steps : Nat) → Bridge Int → Bridge Int × List Int
  | 0, bridge => (bridge, [])
  | steps + 1, bridge =>
      match bridge.consume with
      | (bridge, none) => (bridge, [])
      | (bridge, some item) =>
          let bridge :=
            if 0 < followers below? item then
              match bridge.produce (item + 1) with
              | .ok bridge => bridge
              | .error _ => bridge
            else bridge
          let (bridge, taken) := takeItems below? steps bridge
          (bridge, item :: taken)

def handle (limit? : Option Nat) (below? : Option Int) (bridge : Bridge Int)
    (wakes : List (List Int)) : Bridge Int × List (List Int) :=
  let all := total below? bridge.items
  let (bridge, taken) := takeItems below? (min (limit?.getD all) all) bridge
  (bridge, wakes ++ [taken])

def create : Echo :=
  { reactor := .create "sim", bridge := {} }

def produce (echo : Echo) (item : Int) : Echo × Except Error Unit :=
  match echo.bridge.produce item with
  | .ok bridge => ({ echo with bridge }, .ok ())
  | .error error => (echo, .error error)

def consume (echo : Echo) : Echo × Option Int :=
  let (bridge, item?) := echo.bridge.consume
  ({ echo with bridge }, item?)

def close (echo : Echo) : Echo × Nat :=
  let (bridge, discarded) := echo.bridge.close
  ({ echo with bridge }, discarded.length)

def ready? (echo : Echo) : Echo × Option Bool :=
  let (bridge, ready?) := echo.bridge.ready?
  ({ echo with bridge }, ready?)

/-- Starts the task on the reactor. The first start decides what the handler
does. -/
def start (echo : Echo) (limit? : Option Nat) (below? : Option Int) :
    Echo × Except Error Unit :=
  let echo := if echo.last?.isNone then { echo with limit?, below? } else echo
  let (reactor, bridge, result) := echo.reactor.load () Bridge.start echo.bridge
  match result with
  | .ok id => ({ echo with reactor, bridge, last? := some id }, .ok ())
  | .error error => ({ echo with reactor, bridge }, .error error)

def stop (echo : Echo) : Echo × Bool :=
  match echo.last? with
  | none => (echo, false)
  | some id =>
      let (reactor, bridge, stopped) :=
        echo.reactor.unload id (fun _ bridge => (bridge.stop).1) echo.bridge
      ({ echo with reactor, bridge }, stopped)

/-- Lets the task work until it waits. Each wake-up but the first follows from
an answer. -/
def advance (echo : Echo) : Echo :=
  let (bridge, wakes) :=
    Bridge.work (handle echo.limit? echo.below?)
      (total echo.below? echo.bridge.items + 2) echo.bridge echo.wakes
  { echo with bridge, wakes }

end Echo

end DnsForwarder.Simulation
