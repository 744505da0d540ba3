import DnsForwarder.Error

/-! A queue into a reactor. Any number of producers push items; one consumer
takes them. A signal tells the consumer of items in a queue that was empty, and
of the end of the queue; a signal that nobody waits for is kept, but only
one. -/

namespace DnsForwarder

inductive Watch where
  | absent
  | asking
  | waiting
  /-- The signal has come, and the task has not gone on yet. -/
  | woken
  | handling
  | ended
  deriving DecidableEq, Repr

structure Bridge (α : Type) where
  items : List α := []
  closed : Bool := false
  permit : Bool := false
  watch : Watch := .absent
  deriving Repr

namespace Bridge

variable {α σ : Type}

/-- Gives the signal: to the task that waits for it, or else to keep. -/
def notify (bridge : Bridge α) : Bridge α :=
  if bridge.watch = .waiting then { bridge with watch := .woken }
  else { bridge with permit := true }

/-- Puts an item at the end of the queue; whether the queue was empty says if a
signal is due. -/
def push (bridge : Bridge α) (item : α) : Except Error (Bridge α × Bool) :=
  if bridge.closed then .error .bridgeClosed
  else .ok ({ bridge with items := bridge.items ++ [item] },
    bridge.items.isEmpty)

def produce (bridge : Bridge α) (item : α) : Except Error (Bridge α) :=
  (bridge.push item).map fun (bridge, due) =>
    if due then bridge.notify else bridge

def consume (bridge : Bridge α) : Bridge α × Option α :=
  match bridge.items with
  | [] => (bridge, none)
  | item :: rest => ({ bridge with items := rest }, some item)

/-- Ends the queue and gives back what was left in it; nothing is left when it
had ended before. -/
def close (bridge : Bridge α) : Bridge α × List α :=
  if bridge.closed then (bridge, [])
  else ({ bridge with items := [], closed := true }.notify, bridge.items)

/-- Asks for the signal without waiting: whether the queue is still open once
the signal is there, or nothing if it is not. -/
def ready? (bridge : Bridge α) : Bridge α × Option Bool :=
  if bridge.closed then (bridge, some false)
  else if bridge.permit then ({ bridge with permit := false }, some true)
  else (bridge, none)

/-- Lets the task go on until its handler has to run, or until it waits or
ends. -/
def poll (bridge : Bridge α) : Bridge α :=
  match bridge.watch with
  | .asking =>
      if bridge.closed then { bridge with watch := .ended }
      else if bridge.permit then
        { bridge with permit := false, watch := .handling }
      else { bridge with watch := .waiting }
  | .woken =>
      { bridge with watch := if bridge.closed then .ended else .handling }
  | .absent | .waiting | .handling | .ended => bridge

def work (handler : Bridge α → σ → Bridge α × σ) :
    (wakes : Nat) → Bridge α → σ → Bridge α × σ
  | 0, bridge, state => (bridge, state)
  | wakes + 1, bridge, state =>
      let bridge := bridge.poll
      if bridge.watch = .handling then
        let (bridge, state) := handler bridge state
        work handler wakes { bridge with watch := .asking } state
      else (bridge, state)

def start (bridge : Bridge α) : Except Error (Bridge α) :=
  if bridge.watch ≠ .absent then .ok bridge
  else if bridge.closed then .error .bridgeClosed
  else .ok { bridge with watch := .asking }

def stop (bridge : Bridge α) : Bridge α × List α :=
  let (bridge, discarded) := bridge.close
  ({ bridge with watch := .absent }, discarded)

end Bridge

end DnsForwarder
