import DnsForwarder.Reactor.Basic
import DnsForwarder.Reactor.Bridge

/-! A reactor with a thread of its own. Tasks reach it over a bridge and run in
batches; once it is asked to stop it finishes the batch, stops all components
and takes no more tasks. -/

namespace DnsForwarder

abbrev ReactorTask (ρ σ : Type) := Reactor ρ × σ → Reactor ρ × σ

structure Dispatcher (ρ σ : Type) where
  reactor : Reactor ρ
  state : σ
  tasks : Bridge (ReactorTask ρ σ) := {}
  isStopped : Bool := false

namespace Dispatcher

variable {ρ σ α : Type}

def create (name : String) (state : σ) : Dispatcher ρ σ :=
  { reactor := .create name, state, tasks := { watch := .asking } }

def name (dispatcher : Dispatcher ρ σ) : String :=
  dispatcher.reactor.name

def stoppedError (dispatcher : Dispatcher ρ σ) : Error :=
  .dispatcherStopped dispatcher.name

/-- The error of a call that the thread of the reactor itself must not make. -/
def blockingError (dispatcher : Dispatcher ρ σ) (call : String) : Error :=
  .wouldBlock s!"{call}() on dispatcher '{dispatcher.name}'"

def execute (dispatcher : Dispatcher ρ σ) (task : ReactorTask ρ σ) :
    Except Error (Dispatcher ρ σ) :=
  if dispatcher.reactor.stopping then .error dispatcher.stoppedError
  else
    match dispatcher.tasks.produce task with
    | .error _ => .error dispatcher.stoppedError
    | .ok tasks => .ok { dispatcher with tasks }

/-- Runs all queued tasks in order; a task that asks the reactor to stop does
not keep the others from running. -/
def runBatch (tasks : Bridge (ReactorTask ρ σ)) (state : Reactor ρ × σ) :
    Bridge (ReactorTask ρ σ) × Reactor ρ × σ :=
  ({ tasks with items := [] },
    tasks.items.foldl (fun state task => task state) state)

def finish (dispatcher : Dispatcher ρ σ) (stop : ρ → σ → σ) : Dispatcher ρ σ :=
  let (reactor, state) := dispatcher.reactor.unloadAll stop dispatcher.state
  { reactor, state, tasks := (dispatcher.tasks.close).1, isStopped := true }

/-- Lets the thread go on until it waits or ends. A request to stop goes before
all tasks of a new batch. -/
def turn (dispatcher : Dispatcher ρ σ) (stop : ρ → σ → σ) : Dispatcher ρ σ :=
  if dispatcher.isStopped then dispatcher
  else if dispatcher.reactor.stopping then dispatcher.finish stop
  else
    let (tasks, reactor, state) :=
      Bridge.work runBatch 1 dispatcher.tasks
        (dispatcher.reactor, dispatcher.state)
    let dispatcher := { dispatcher with tasks, reactor, state }
    if dispatcher.reactor.stopping then dispatcher.finish stop else dispatcher

def call (dispatcher : Dispatcher ρ σ) (stop : ρ → σ → σ)
    (task : Reactor ρ × σ → (Reactor ρ × σ) × α) :
    Dispatcher ρ σ × Except Error α :=
  let (_, before) :=
    runBatch dispatcher.tasks (dispatcher.reactor, dispatcher.state)
  match dispatcher.execute fun state => (task state).1 with
  | .error error => (dispatcher, .error error)
  | .ok queued => (queued.turn stop, .ok (task before).2)

def stop (dispatcher : Dispatcher ρ σ) : Dispatcher ρ σ :=
  { dispatcher with reactor := dispatcher.reactor.stop }

end Dispatcher

end DnsForwarder
