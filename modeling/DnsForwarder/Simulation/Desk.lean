import DnsForwarder.Server.Handler
import DnsForwarder.Simulation.Request

/-! The place where the answers of one engine arrive: those to queries go to a
server, and those to named guests are written down. -/

namespace DnsForwarder.Simulation

structure Desk where
  server : Server
  delivered : List Delivered := []

namespace Desk

abbrev SharedEngine := Engine (Party String) (Parcel Ticket)

def note (desk : Desk) (delivered : Delivered) : Desk :=
  { desk with delivered := desk.delivered ++ [delivered] }

def takeForServer (desk : Desk) (context : QueryContext) (answer : Answer) :
    Desk :=
  { desk with server := desk.server.answerDelivered context answer }

/-- A guest takes an answer: it makes the request that follows, and then the
answer is written down. -/
def takeForGuest (desk : Desk) (now : Nat) (caller : String) (ticket : Ticket)
    (answer : Answer) (engine : SharedEngine) : SharedEngine × Desk :=
  match ticket.next? with
  | none => (engine, desk.note ⟨now, caller, ticket.tag, answer, none⟩)
  | some next =>
      let (engine, outcome) := next.perform .guest now engine (.guest caller)
      (engine, desk.note ⟨now, caller, ticket.tag, answer, some outcome⟩)

def deliver (now : Nat) (delivery : Delivery (Party String) (Parcel Ticket))
    (state : SharedEngine × Desk) : SharedEngine × Desk :=
  let (engine, desk) := state
  match delivery.waiter with
  | ⟨.guest caller, .guest ticket⟩ =>
      desk.takeForGuest now caller ticket delivery.answer engine
  | ⟨_, .query context⟩ => (engine, desk.takeForServer context delivery.answer)
  | ⟨.server, .guest _⟩ => state

def followUps : Parcel Ticket → Nat
  | .query _ => 0
  | .guest ticket => ticket.followUps

def host : Host (Party String) (Parcel Ticket) Desk :=
  ⟨deliver, followUps⟩

end Desk

end DnsForwarder.Simulation
