import DnsForwarder.Simulation.World

/-! Requests of callers that have names. A request carries a tag, and may name
another request that its caller makes while the answer is handed over. -/

namespace DnsForwarder.Simulation

/-- A request with its tag. A question that could not be formed is refused when
the request is made. -/
inductive Request where
  | mk (question : Except Error Question) (tag : Nat) (flags : Flags)
    (next? : Option Request)

structure Ticket where
  tag : Nat
  next? : Option Request

inductive Outcome where
  | pending
  | ready (answer : Answer) (tag : Nat)
  | refused (error : Error)
  deriving Repr

structure Delivered where
  time : Nat
  caller : String
  tag : Nat
  answer : Answer
  next? : Option Outcome
  deriving Repr

namespace Request

def length : Request → Nat
  | .mk _ _ _ none => 1
  | .mk _ _ _ (some next) => next.length + 1

/-- Makes a request to an engine, which keeps the ticket as `context` wraps
it. -/
def perform {κ γ : Type} (request : Request) (context : Ticket → γ) (now : Nat)
    (engine : Engine κ γ) (caller : κ) : Engine κ γ × Outcome :=
  match request with
  | .mk (.error error) _ _ _ => (engine, .refused error)
  | .mk (.ok question) tag flags next? =>
      match engine.resolve now question caller (context ⟨tag, next?⟩) flags with
      | (engine, .error error) => (engine, .refused error)
      | (engine, .ok .pending) => (engine, .pending)
      | (engine, .ok (.ready answer _)) => (engine, .ready answer tag)

end Request

def Ticket.followUps (ticket : Ticket) : Nat :=
  match ticket.next? with
  | none => 0
  | some next => next.length

end DnsForwarder.Simulation
