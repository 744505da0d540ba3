import DnsForwarder.Proofs.Server.Journal

/-! The slots of a server's pool. Every request of the server that waits in the
engine, or whose answer is in hand, has one slot in use, and no other slot
is. -/

namespace DnsForwarder

variable {κ γ : Type}

namespace ContextPool

/-- So many slots are in use; the others are as good as new, and together there
are enough. -/
structure Balanced (pool : ContextPool) (used : Nat) : Prop where
  inUse : pool.inUse = used
  available_le : pool.available ≤ pool.capacity
  enough : pool.capacity ≤ pool.available + pool.inUse
  fresh : ∀ slot ∈ pool.free, slot = {}

variable {pool : ContextPool} {used : Nat}

theorem create_balanced (capacity : Nat) : (create capacity).Balanced 0 := by
  refine ⟨rfl, ?_, ?_, fun slot hslot => List.eq_of_mem_replicate hslot⟩
  all_goals simp [create, available]

@[simp] theorem acquire_capacity (pool : ContextPool) :
    pool.acquire.1.capacity = pool.capacity := by
  unfold acquire
  split <;> rfl

theorem Balanced.acquire (hbalanced : pool.Balanced used) :
    pool.acquire.1.Balanced (used + 1) ∧ pool.acquire.2 = {} := by
  obtain ⟨capacity, free, inUse⟩ := pool
  obtain ⟨hused, havailable, henough, hfresh⟩ := hbalanced
  simp only [available] at hused havailable henough hfresh
  cases free with
  | nil =>
      refine ⟨⟨congrArg (· + 1) hused, Nat.zero_le _, ?_, nofun⟩, rfl⟩
      exact Nat.le_trans henough (Nat.le_succ _)
  | cons slot rest =>
      obtain ⟨hslot, hrest⟩ := List.forall_mem_cons.mp hfresh
      rw [List.length_cons] at havailable henough
      refine ⟨⟨congrArg (· + 1) hused, ?_, ?_, hrest⟩, hslot⟩
      · exact Nat.le_of_succ_le havailable
      · simp only [ContextPool.acquire, available]
        omega

theorem Balanced.release (hbalanced : pool.Balanced (used + 1))
    (slot : QueryContext) :
    (pool.release slot).Balanced used := by
  obtain ⟨capacity, free, inUse⟩ := pool
  obtain ⟨hused, havailable, henough, hfresh⟩ := hbalanced
  simp only [available] at hused havailable henough hfresh
  have hfewer : inUse - 1 = used := by omega
  by_cases hroom : free.length < capacity
  · have hreleased : ContextPool.release ⟨capacity, free, inUse⟩ slot =
        ⟨capacity, {} :: free, inUse - 1⟩ := by
      simp [ContextPool.release, hroom]
    rw [hreleased]
    refine ⟨hfewer, hroom, ?_, List.forall_mem_cons.mpr ⟨rfl, hfresh⟩⟩
    simp only [available, List.length_cons]
    omega
  · have hreleased : ContextPool.release ⟨capacity, free, inUse⟩ slot =
        ⟨capacity, free, inUse - 1⟩ := by
      simp [ContextPool.release, hroom]
    rw [hreleased]
    refine ⟨hfewer, havailable, ?_, hfresh⟩
    simp only [available]
    omega

end ContextPool

namespace Server

open Message

/-- What received bytes do to the pool and to the requests that wait: nothing in
the end, or a slot is taken for one request more. -/
inductive Allots (box : QueryContext → γ) (engine : Engine (Party κ) γ)
    (server : Server) :
    Engine (Party κ) γ → Server → Prop
  | untouched {engine' : Engine (Party κ) γ} {server' : Server}
      (hparked : engine'.parked.Perm engine.parked)
      (hpool : server'.pool = server.pool) :
      Allots box engine server engine' server'
  | returned {engine' : Engine (Party κ) γ} {server' : Server}
    (context : QueryContext) (hparked : engine'.parked.Perm engine.parked)
      (hpool : server'.pool = server.pool.acquire.1.release context) :
      Allots box engine server engine' server'
  | taken {engine' : Engine (Party κ) γ} {server' : Server}
    (question : Question) (context : QueryContext)
      (hparked : engine'.parked.Perm
        (engine.parked ++ [⟨question, ⟨.server, box context⟩⟩]))
      (hpool : server'.pool = server.pool.acquire.1) :
      Allots box engine server engine' server'

variable {engine : Engine (Party κ) γ} (box : QueryContext → γ)
  (server : Server) (now : Nat)

@[simp] theorem send_pool (responder : Responder) (bytes : Octets) :
    (server.send responder bytes).1.pool = server.pool := rfl

@[simp] theorem report_pool (result : Except Error Unit) :
    (server.report result).pool = server.pool := by
  unfold report
  split <;> rfl

@[simp] theorem sendError_pool (responder : Responder) (id : UInt16)
    (opcode : Opcode) (inquiry? : Option Inquiry) (rcode : Rcode) :
    (server.sendError responder id opcode inquiry? rcode).1.pool =
      server.pool := by
  unfold sendError
  split <;> rfl

@[simp] theorem respond_pool (context : QueryContext) (answer : Answer) :
    (server.respond context answer).1.pool = server.pool := by
  unfold respond
  split
  · rfl
  · split <;> rfl

@[simp] theorem conclude_pool (context : QueryContext) (answer : Answer) :
    (server.conclude context answer).1.pool = server.pool.release context := by
  simp [conclude, release]

section Requests

variable [DecidableEq κ]

theorem handle_allots (harmed : engine.Armed) (request : Message)
    (responder : Responder) :
    let outcome := server.handle box engine now request responder
    Allots box engine server outcome.1 outcome.2.1 := by
  cases hquestion : question request with
  | error rcode =>
      simp only [handle, hquestion]
      exact .untouched (.refl _) (server.sendError_pool _ _ _ _ _)
  | ok asked =>
      obtain ⟨inquiry, question⟩ := asked
      let before : Server := { server with pool := server.pool.acquire.1 }
      let context := before.fill server.pool.acquire.2 request inquiry responder
      let flags : Flags := { cacheOnly := !server.recursionAvailable }
      have hperm :=
        (engine.resolve_move now question .server
            (box context) flags).parked_perm harmed.keyed
      simp only [handle, hquestion]
      cases hresolve : engine.resolve now question .server
        (box context) flags with
      | mk after resolution =>
          simp only [Engine.perform, hresolve, Engine.taken, List.map_nil,
            List.append_nil] at hperm
          cases resolution with
          | error error =>
              have hparked : after.parked.Perm engine.parked := by
                simpa [Engine.Event.admitted] using hperm.symm
              refine .returned context hparked ?_
              exact (before.release context).sendError_pool _ _ _ _ _
          | ok resolution =>
              cases resolution with
              | pending => exact .taken question context hperm.symm rfl
              | ready answer back =>
                  have hparked : after.parked.Perm engine.parked := by
                    simpa [Engine.Event.admitted] using hperm.symm
                  exact .returned context hparked
                    (before.conclude_pool context answer)

theorem dispatch_allots (harmed : engine.Armed) (inbound : Inbound) :
    let outcome :=
      server.dispatch box engine now inbound.bytes inbound.responder
    Allots box engine server outcome.1 outcome.2.1 := by
  simp only [dispatch]
  split
  next request _ =>
    split
    next => exact .untouched (.refl _) rfl
    next => exact handle_allots box server now harmed request inbound.responder
  next =>
    split
    next => exact .untouched (.refl _) rfl
    next => exact .untouched (.refl _) (server.sendError_pool _ _ _ _ _)

end Requests

end Server

def Request.isServers (request : Request (Party κ) γ) : Bool :=
  match request.waiter.caller with
  | .server => true
  | .guest _ => false

namespace Service

def waiting (service : Service κ γ) : Nat :=
  service.engine.parked.countP Request.isServers

def due (service : Service κ γ) : Nat :=
  (service.inHand.map Delivery.request).countP Request.isServers

structure Allotted (service : Service κ γ) (capacity : Nat) : Prop where
  armed : service.engine.Armed
  queries :
    ∀ request ∈ service.engine.parked ++ service.inHand.map Delivery.request,
    request.isServers = request.waiter.query?.isSome
  balanced : service.server.pool.Balanced (service.waiting + service.due)
  capacity_eq : service.server.pool.capacity = capacity

variable {service : Service κ γ} {capacity : Nat}

theorem start_allotted (settings : Settings) (ids : Nat → UInt16)
    (server : Server) (capacity : Nat) :
    ({ engine := .create settings ids,
       server := { server with pool := .create capacity } } :
      Service κ γ).Allotted capacity where
  armed := Engine.create_armed settings ids
  queries := by simp [Engine.parked, Engine.create]
  balanced := by
    simpa [waiting, due, Engine.parked, Engine.create]
      using ContextPool.create_balanced capacity
  capacity_eq := rfl

theorem Allotted.congr (hallotted : service.Allotted capacity)
    {engine : Engine (Party κ) (Parcel γ)} {server : Server}
    (harmed : engine.Armed)
    (hparked : engine.parked.Perm service.engine.parked)
    (hpool : server.pool.Balanced (service.waiting + service.due))
    (hcapacity : server.pool.capacity = service.server.pool.capacity) :
    Allotted { service with engine, server } capacity where
  armed := harmed
  queries := by
    intro request hrequest
    exact hallotted.queries request
      ((hparked.append_right _).mem_iff.mp hrequest)
  balanced := by
    have hwaiting : waiting { service with engine, server } = service.waiting :=
      hparked.countP_eq _
    rw [hwaiting]
    exact hpool
  capacity_eq := hcapacity.trans hallotted.capacity_eq

theorem guests_of_ofGuest [DecidableEq κ]
    (engine : Engine (Party κ) (Parcel γ)) (event : Engine.Event κ γ)
    (resolution? : Option (Except Error (Resolution (Parcel γ)))) :
    ∀ request ∈ event.ofGuest.admitted resolution? ++
      engine.taken event.ofGuest,
      ∃ caller, request.waiter.caller = .guest caller := by
  intro request hrequest
  rcases List.mem_append.mp hrequest with hadmitted | htaken
  · unfold Engine.Event.admitted at hadmitted
    split at hadmitted
    next hevent =>
      cases event <;> cases hevent
      obtain rfl := List.mem_singleton.mp hadmitted
      exact ⟨_, rfl⟩
    next => cases hadmitted
  · cases event with
    | cancel caller =>
        exact ⟨caller, by simpa using (List.mem_filter.mp htaken).2⟩
    | _ => cases htaken

variable [DecidableEq κ]

theorem Allotted.receive (hallotted : service.Allotted capacity)
    (inbound : Inbound) :
    (service.turn (.receive inbound)).Allotted capacity := by
  have harmed' : (service.turn (.receive inbound)).engine.Armed := by
    have hreception :=
      Server.dispatch_reception .query hallotted.armed
        service.server service.now inbound
    simp only [turn]
    generalize service.server.dispatch .query service.engine service.now
      inbound.bytes inbound.responder = outcome at hreception ⊢
    cases hreception with
    | ignored => exact hallotted.armed
    | closed _ harmed => exact harmed
    | parked _ harmed => exact harmed
  have hallots :=
    Server.dispatch_allots .query service.server service.now
      hallotted.armed inbound
  have hbalanced := hallotted.balanced
  obtain ⟨hacquired, -⟩ := hbalanced.acquire
  simp only [turn] at harmed' ⊢
  cases hallots with
  | untouched hparked hpool =>
      apply hallotted.congr harmed' hparked
      · rw [hpool]
        exact hbalanced
      · rw [hpool]
  | returned context hparked hpool =>
      apply hallotted.congr harmed' hparked
      · rw [hpool]
        exact hacquired.release context
      · rw [hpool]
        exact service.server.pool.acquire_capacity
  | taken question context hparked hpool =>
      refine ⟨harmed', ?_, ?_, ?_⟩
      · intro request hrequest
        rcases List.mem_append.mp hrequest with hwaits | hdue
        · rcases List.mem_append.mp (hparked.mem_iff.mp hwaits) with hold | hnew
          · exact hallotted.queries request (List.mem_append_left _ hold)
          · obtain rfl := List.mem_singleton.mp hnew
            rfl
        · exact hallotted.queries request (List.mem_append_right _ hdue)
      · have hcount := hparked.countP_eq Request.isServers
        rw [List.countP_append] at hcount
        simp only [waiting, due, hcount, hpool] at hacquired ⊢
        rw [Nat.add_right_comm]
        exact hacquired
      · rw [hpool, ContextPool.acquire_capacity]
        exact hallotted.capacity_eq

theorem mem_of_perform (harmed : service.engine.Armed)
    (event : Engine.Event κ γ) {request : Request (Party κ) (Parcel γ)} :
    let after := service.turn (.perform event)
    request ∈ after.engine.parked ++ after.inHand.map Delivery.request →
      request ∈ service.engine.parked ++ service.inHand.map Delivery.request ∨
        ∃ caller, request.waiter.caller = .guest caller := by
  intro after hrequest
  have hperm :=
    (service.engine.perform_move service.now event.ofGuest).parked_perm
      harmed.keyed
  have hguests := guests_of_ofGuest service.engine event
    (service.engine.perform service.now event.ofGuest).resolution?
  have hsource :
      request ∈ service.engine.parked ++ service.inHand.map Delivery.request ∨
      request ∈ event.ofGuest.admitted
        (service.engine.perform service.now event.ofGuest).resolution? := by
    have hmem : request ∈ _ ↔ request ∈ _ := hperm.mem_iff
    simp only [after, turn, List.map_append] at hrequest
    simp only [List.mem_append] at hmem hrequest ⊢
    tauto
  exact hsource.imp_right fun hadmitted =>
    hguests request (List.mem_append_left _ hadmitted)

theorem Allotted.perform (hallotted : service.Allotted capacity)
    (event : Engine.Event κ γ) :
    (service.turn (.perform event)).Allotted capacity := by
  have hmove := service.engine.perform_move service.now event.ofGuest
  have hperm := hmove.parked_perm hallotted.armed.keyed
  have hguests := guests_of_ofGuest service.engine event
    (service.engine.perform service.now event.ofGuest).resolution?
  refine ⟨hallotted.armed.move hmove, ?_, ?_, hallotted.capacity_eq⟩
  · intro request hrequest
    rcases mem_of_perform hallotted.armed event hrequest with
      hold | ⟨caller, hcaller⟩
    · exact hallotted.queries request hold
    · obtain ⟨question, ⟨caller', context⟩⟩ := request
      obtain rfl : caller' = .guest caller := hcaller
      rfl
  · have hnone : (event.ofGuest.admitted
        (service.engine.perform service.now event.ofGuest).resolution? ++
          service.engine.taken event.ofGuest).countP Request.isServers = 0 := by
      rw [List.countP_eq_zero]
      intro request hrequest
      obtain ⟨caller, hcaller⟩ := hguests request hrequest
      simp [Request.isServers, hcaller]
    have hcount := hperm.countP_eq Request.isServers
    simp only [List.countP_append] at hcount hnone
    have hsame :
        waiting (service.turn (.perform event)) +
        due (service.turn (.perform event)) =
        service.waiting + service.due := by
      simp only [waiting, due, turn, List.map_append, List.countP_append]
      omega
    rw [hsame]
    exact hallotted.balanced

omit [DecidableEq κ] in
theorem Allotted.due_eq (hallotted : service.Allotted capacity)
    {delivery : Delivery (Party κ) (Parcel γ)}
    {inHand : List (Delivery (Party κ) (Parcel γ))}
    (hinHand : service.inHand = delivery :: inHand) :
    service.due = (inHand.map Delivery.request).countP Request.isServers +
      delivery.waiter.query?.isSome.toNat := by
  have hkind : delivery.request.isServers = delivery.waiter.query?.isSome :=
    hallotted.queries delivery.request (by simp [hinHand])
  rw [due, hinHand, List.map_cons, List.countP_cons, hkind]
  cases delivery.waiter.query? <;> rfl

theorem Allotted.hand (hallotted : service.Allotted capacity) :
    (service.turn .hand).Allotted capacity := by
  cases hinHand : service.inHand with
  | nil =>
      simp only [turn, hinHand]
      exact hallotted
  | cons delivery inHand =>
      have hbalanced := hallotted.balanced
      have hqueries :
          ∀ request ∈ service.engine.parked ++ inHand.map Delivery.request,
          request.isServers = request.waiter.query?.isSome := by
        intro request hrequest
        apply hallotted.queries
        rw [hinHand]
        rcases List.mem_append.mp hrequest with hwaits | hdue
        · exact List.mem_append_left _ hwaits
        · exact List.mem_append_right _ (List.mem_cons_of_mem _ hdue)
      rw [hallotted.due_eq hinHand] at hbalanced
      cases hquery : delivery.waiter.query? with
      | none =>
          simp only [turn, hinHand, hquery]
          rw [hquery] at hbalanced
          exact ⟨hallotted.armed, hqueries, hbalanced, hallotted.capacity_eq⟩
      | some context =>
          simp only [turn, hinHand, hquery]
          rw [hquery] at hbalanced
          refine ⟨hallotted.armed, hqueries, ?_, ?_⟩
          · rw [Server.answerDelivered, Server.conclude_pool]
            exact hbalanced.release context
          · rw [Server.answerDelivered, Server.conclude_pool]
            exact hallotted.capacity_eq

theorem Allotted.turn (hallotted : service.Allotted capacity)
    (turn : Turn κ γ) :
    (service.turn turn).Allotted capacity := by
  cases turn with
  | receive inbound => exact hallotted.receive inbound
  | perform event => exact hallotted.perform event
  | hand => exact hallotted.hand

theorem run_allotted (settings : Settings) (ids : Nat → UInt16)
    (server : Server) (capacity : Nat) (turns : List (Turn κ γ)) :
    (run settings ids { server with pool := .create capacity } turns).Allotted
      capacity := by
  induction turns using List.reverseRecOn with
  | nil => exact start_allotted settings ids server capacity
  | append_singleton turns turn ih =>
      rw [run, List.foldl_append]
      exact ih.turn turn

/-- In every run of a server whose pool starts with so many slots, as many slots
are in use as requests of the server wait in the engine or have an answer in
hand. Those that are not in use are no more than there were and, with those in
use, no fewer, and they are as good as new, so that a request starts with
nothing of another one. An answer that is handed to the server gives its one
slot back, and when no request waits, all slots are back. -/
theorem every_waiting_request_has_a_slot (settings : Settings)
    (ids : Nat → UInt16) (server : Server) (capacity : Nat)
    (turns : List (Turn κ γ)) :
    let service :=
      run settings ids { server with pool := .create capacity } turns
    let pool := service.server.pool
    pool.inUse = service.waiting + service.due ∧
    (service.inHand = [] → pool.inUse = service.waiting) ∧
    pool.capacity = capacity ∧ pool.available ≤ capacity ∧
    capacity ≤ pool.available + pool.inUse ∧
    (∀ slot ∈ pool.free, slot = {}) ∧ pool.acquire.2 = {} ∧
    (∀ delivery inHand context, service.inHand = delivery :: inHand →
      delivery.waiter.query? = some context →
        (service.turn .hand).server.pool.inUse + 1 = pool.inUse) ∧
    (service.waiting = 0 → service.inHand = [] →
      pool.inUse = 0 ∧ pool.available = capacity) := by
  intro service pool
  have hallotted : service.Allotted capacity :=
    run_allotted settings ids server capacity turns
  obtain ⟨hinUse, havailable, henough, hfresh⟩ := hallotted.balanced
  have hcapacity := hallotted.capacity_eq
  have hnothingDue (hinHand : service.inHand = []) : service.due = 0 := by
    simp [due, hinHand]
  rw [hcapacity] at havailable henough
  refine ⟨hinUse, ?_, hcapacity, havailable, henough, hfresh,
    hallotted.balanced.acquire.2, ?_, ?_⟩
  · intro hinHand
    rw [hinUse, hnothingDue hinHand, Nat.add_zero]
  · intro delivery inHand context hinHand hquery
    have hafter := hallotted.hand.balanced.inUse
    have hdue : service.due = (service.turn .hand).due + 1 := by
      rw [hallotted.due_eq hinHand, hquery]
      simp [due, turn, hinHand, hquery]
    have hwaiting : (service.turn .hand).waiting = service.waiting := by
      simp [waiting, turn, hinHand, hquery]
    rw [hafter, hwaiting, hinUse, hdue, Nat.add_assoc]
  · intro hwaiting hinHand
    have hnone : pool.inUse = 0 := by
      rw [hinUse, hnothingDue hinHand, hwaiting]
    refine ⟨hnone, Nat.le_antisymm havailable ?_⟩
    rw [hnone] at henough
    exact henough

end Service

end DnsForwarder
