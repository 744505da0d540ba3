import DnsForwarder.Address.Endpoint
import DnsForwarder.Engine.Basic
import DnsForwarder.Memory

/-! What a server remembers of a request until it answers, and a store of slots
for it. -/

namespace DnsForwarder

structure Responder where
  peer : Endpoint
  protocol : Protocol
  line : Nat
  deriving DecidableEq, Repr

structure QueryContext where
  id : UInt16 := 0
  opcode? : Option Message.Opcode := none
  inquiry? : Option Message.Inquiry := none
  recursionDesired : Bool := false
  maxResponseSize : Nat := 0
  responder? : Option Responder := none
  deriving DecidableEq, Repr

def QueryContext.reset (slot : QueryContext) : QueryContext :=
  { slot with
    id := 0
    opcode? := none
    inquiry? := none
    recursionDesired := false
    maxResponseSize := 0
    responder? := none }

@[simp] theorem QueryContext.reset_eq (slot : QueryContext) :
    slot.reset = {} := rfl

/-- Slots that are not in use, and the number of those that are. At most
`capacity` slots are kept; more are made when they are needed. -/
structure ContextPool where
  capacity : Nat
  free : List QueryContext
  inUse : Nat
  deriving DecidableEq, Repr

namespace ContextPool

/-- A full pool, as there is where memory has room for it (`create?`). -/
def create (capacity : Nat) : ContextPool :=
  ⟨capacity, List.replicate capacity {}, 0⟩

def create? (memory : Memory) (capacity : Nat) : Option ContextPool :=
  if capacity ≤ memory.slots then some (create capacity) else none

def acquire (pool : ContextPool) : ContextPool × QueryContext :=
  match pool.free with
  | slot :: rest => (⟨pool.capacity, rest, pool.inUse + 1⟩, slot)
  | [] => (⟨pool.capacity, [], pool.inUse + 1⟩, {})

def release (pool : ContextPool) (slot : QueryContext) : ContextPool :=
  let free :=
    if pool.free.length < pool.capacity then slot.reset :: pool.free
    else pool.free
  ⟨pool.capacity, free, pool.inUse - 1⟩

def available (pool : ContextPool) : Nat :=
  pool.free.length

end ContextPool

end DnsForwarder
