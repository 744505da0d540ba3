/-! Timers of a reactor. A timer that is cancelled never goes off; it is over
when the reactor gets to it. -/

namespace DnsForwarder

inductive TimerStatus where
  | armed
  | cancelled
  | over
  deriving DecidableEq, Repr

structure Timer (τ : Type) where
  due : Nat
  task : τ
  status : TimerStatus := .armed
  deriving Repr

abbrev Timers (τ : Type) := List (Timer τ)

namespace Timers

variable {τ : Type}

def set (timers : Timers τ) (due : Nat) (task : τ) : Timers τ :=
  timers ++ [⟨due, task, .armed⟩]

def mark (timers : Timers τ) (position : Nat) (status : TimerStatus) :
    Timers τ :=
  timers.modify position fun timer => { timer with status }

def cancel (timers : Timers τ) (position : Nat) : Timers τ :=
  timers.modify position fun timer =>
    if timer.status = .armed then { timer with status := .cancelled } else timer

/-- Lets the cancelled timers be over. -/
def sweep (timers : Timers τ) : Timers τ :=
  timers.map fun timer =>
    if timer.status = .cancelled then { timer with status := .over } else timer

/-- The first of the armed timers that are due soonest, with its position. -/
def next? (timers : Timers τ) : Option (Nat × Timer τ) :=
  let armed := timers.zipIdx.filter fun (timer, _) => timer.status == .armed
  match armed with
  | [] => none
  | first :: rest =>
      let sooner (best other : Timer τ × Nat) :=
        if other.1.due < best.1.due then other else best
      let (timer, position) := rest.foldl sooner first
      some (position, timer)

end Timers

end DnsForwarder
