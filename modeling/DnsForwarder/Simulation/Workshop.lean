import DnsForwarder.Reactor.Timers
import DnsForwarder.Simulation.Components

/-! A reactor with named components and timers on a virtual clock. -/

namespace DnsForwarder.Simulation

structure Chime where
  tag : Int
  stops : Bool := false
  next? : Option Nat := none
  known : Bool := true
  deriving DecidableEq, Repr

structure Fired where
  time : Nat
  tag : Int
  deriving DecidableEq, Repr

structure Workshop where
  reactor : Reactor Component
  now : Nat := 0
  timers : Timers Chime := []
  loads : List (Option Nat) := []
  log : List String := []
  fired : List Fired := []

namespace Workshop

def create (name : String) : Workshop :=
  { reactor := .create name }

def load (workshop : Workshop) (component : Component) :
    Workshop × Except Error Nat :=
  let (reactor, log, result) :=
    workshop.reactor.load component component.start workshop.log
  ({ workshop with reactor, log, loads := workshop.loads ++ [result.toOption] },
    result)

def unload (workshop : Workshop) (position : Nat) : Workshop × Option Bool :=
  match workshop.loads[position]?.join with
  | none => (workshop, none)
  | some id =>
      let (reactor, log, stopped) :=
        workshop.reactor.unload id Component.stop workshop.log
      ({ workshop with reactor, log }, some stopped)

def stop (workshop : Workshop) : Workshop :=
  { workshop with reactor := workshop.reactor.stop }

def setTimer (workshop : Workshop) (delay : Nat) (chime : Chime) : Workshop :=
  { workshop with timers := workshop.timers.set (workshop.now + delay) chime }

def timer? (workshop : Workshop) (tag : Int) : Option Nat :=
  let tagged := workshop.timers.zipIdx.filter fun (timer, _) =>
    timer.task.known && timer.task.tag == tag
  tagged.getLast?.map Prod.snd

def cancel? (workshop : Workshop) (tag : Int) : Option Workshop := do
  let position ← workshop.timer? tag
  return { workshop with timers := workshop.timers.cancel position }

def isFinished? (workshop : Workshop) (tag : Int) : Option Bool := do
  let timer ← workshop.timers[← workshop.timer? tag]?
  return timer.status == .over

def tagStep : Int := 1000

def fire (workshop : Workshop) (position : Nat) (timer : Timer Chime) :
    Workshop :=
  let now := max workshop.now timer.due
  let workshop :=
    { workshop with
      now
      timers := workshop.timers.mark position .over
      fired := workshop.fired ++ [⟨now, timer.task.tag⟩] }
  let workshop := if timer.task.stops then workshop.stop else workshop
  match timer.task.next? with
  | none => workshop
  | some delay =>
      workshop.setTimer delay
        { tag := timer.task.tag + tagStep, known := false }

def fireAll (limit : Nat) : (count : Nat) → Workshop → Workshop
  | 0, workshop => workshop
  | count + 1, workshop =>
      match workshop.timers.next? with
      | none => workshop
      | some (position, timer) =>
          if timer.due ≤ limit then
            fireAll limit count (workshop.fire position timer)
          else workshop

/-- Moves the clock. No timer has more than one to follow it. -/
def advance (workshop : Workshop) (ms : Nat) : Workshop :=
  let limit := workshop.now + ms
  let workshop := { workshop with timers := workshop.timers.sweep }
  let workshop := fireAll limit (2 * workshop.timers.length) workshop
  { workshop with now := limit }

end Workshop

end DnsForwarder.Simulation
