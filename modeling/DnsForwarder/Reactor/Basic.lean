import DnsForwarder.Error

/-! Components that a reactor has started and will stop. Each successful start
gets a number of its own, and components are stopped in the reverse of the order
in which they were started. -/

namespace DnsForwarder

structure Reactor (ρ : Type) where
  name : String
  runnables : List (Nat × ρ)
  /-- Without the bound that a number of 64 bits has. -/
  nextId : Nat
  stopping : Bool

namespace Reactor

variable {ρ σ : Type}

def create (name : String) : Reactor ρ :=
  ⟨name, [], 0, false⟩

/-- Starts a component and keeps it. A reactor that is stopping starts nothing,
and a component that does not start is not kept. -/
def load (reactor : Reactor ρ) (runnable : ρ) (start : σ → Except Error σ)
    (state : σ) :
    Reactor ρ × σ × Except Error Nat :=
  if reactor.stopping then
    (reactor, state, .error (.dispatcherStopped reactor.name))
  else
    match start state with
    | .error error => (reactor, state, .error error)
    | .ok state =>
        ({ reactor with
            runnables := reactor.runnables ++ [(reactor.nextId, runnable)]
            nextId := reactor.nextId + 1 },
          state, .ok reactor.nextId)

def find? (reactor : Reactor ρ) (id : Nat) : Option ρ :=
  reactor.runnables.lookup id

/-- Stops a component and forgets it; answers whether it was there. -/
def unload (reactor : Reactor ρ) (id : Nat) (stop : ρ → σ → σ) (state : σ) :
    Reactor ρ × σ × Bool :=
  match reactor.find? id with
  | none => (reactor, state, false)
  | some runnable =>
      ({ reactor with
         runnables := reactor.runnables.filter fun loaded => loaded.1 != id },
        stop runnable state, true)

/-- Stops all components, the last one first. -/
def unloadAll (reactor : Reactor ρ) (stop : ρ → σ → σ) (state : σ) :
    Reactor ρ × σ :=
  ({ reactor with runnables := [] },
    reactor.runnables.foldr (fun loaded state => stop loaded.2 state) state)

def stop (reactor : Reactor ρ) : Reactor ρ :=
  { reactor with stopping := true }

def count (reactor : Reactor ρ) : Nat :=
  reactor.runnables.length

end Reactor

end DnsForwarder
