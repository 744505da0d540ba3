import DnsForwarder.Proofs.Server.Aging
import DnsForwarder.Simulation.ListenerSession
import Mathlib.Logic.Relation

/-! What simulations do to their engines is made of the events of an engine, so
whatever all events keep holds of the engines that are simulated. -/

namespace DnsForwarder

variable {κ γ σ : Type} [DecidableEq κ]

/-- Some events take an engine to another one. -/
def Engine.Leads : Engine κ γ → Engine κ γ → Prop :=
  Relation.ReflTransGen fun engine next =>
    ∃ now event, (engine.perform now event).engine = next

namespace Engine.Leads

variable {engine next : Engine κ γ}

theorem perform (engine : Engine κ γ) (now : Nat) (event : Event κ γ) :
    engine.Leads (engine.perform now event).engine :=
  .single ⟨now, event, rfl⟩

theorem keeps {motive : Engine κ γ → Prop}
    (hkeeps : ∀ engine now event, motive engine →
      motive (engine.perform now event).engine)
    (hleads : engine.Leads next) (hengine : motive engine) : motive next := by
  induction hleads with
  | refl => exact hengine
  | tail _ hevent ih =>
      obtain ⟨now, event, rfl⟩ := hevent
      exact hkeeps _ now event ih

theorem armed (hleads : engine.Leads next) (harmed : engine.Armed) :
    next.Armed :=
  hleads.keeps (fun engine now event harmed =>
    harmed.move (perform_move engine now event)) harmed

theorem start (hstart : engine.start = .ok next) : engine.Leads next := by
  have hperform : (engine.perform 0 .start).engine = next := by
    rw [Engine.perform, hstart]
  exact hperform ▸ perform engine 0 .start

end Engine.Leads

namespace Simulation

def Host.IsCaller (host : Host κ γ σ) : Prop :=
  ∀ now delivery (state : Engine κ γ × σ),
    state.1.Leads (host.deliver now delivery state).1

namespace World

variable {host : Host κ γ σ} (hhost : host.IsCaller) (world : World κ γ σ)
include hhost

theorem apply_leads (step : Engine κ γ × List (Delivery κ γ)) :
    step.1.Leads (world.apply host step).engine := by
  obtain ⟨engine, deliveries⟩ := step
  have hfold (state : Engine κ γ × σ) :
      state.1.Leads (deliveries.foldl
        (fun state delivery => host.deliver world.now delivery state)
        state).1 := by
    induction deliveries generalizing state with
    | nil => exact .refl
    | cons delivery deliveries ih =>
        exact (hhost world.now delivery state).trans (ih _)
  exact hfold (engine, world.host)

theorem ended_leads (now : Nat) (question : Question) (generation : Nat)
    (ending : AttemptEnd) (later : World κ γ σ) :
    world.engine.Leads (later.apply host
      (world.engine.onEnd now question generation ending)).engine :=
  (Engine.Leads.perform world.engine now
      (.ended question generation ending)).trans (later.apply_leads hhost _)

theorem send_leads (exchange : Exchange) :
    world.engine.Leads (world.send host exchange).engine := by
  simp only [send]
  split
  next => exact .refl
  next result hresult =>
    split
    next => exact world.ended_leads hhost _ _ _ (.result result) _
    next => exact .refl

theorem meet_leads (due : Due) :
    world.engine.Leads (world.meet host due).engine := by
  cases due with
  | result arrival => exact world.ended_leads hhost _ _ _ (.result _) _
  | ring alarm => exact world.ended_leads hhost _ _ _ .alarm _

theorem workOff_leads (limit steps : Nat) :
    world.engine.Leads (workOff host limit steps world).engine := by
  induction steps generalizing world with
  | zero => exact .refl
  | succ steps ih =>
      rw [workOff]
      split
      next next hwork =>
        refine .trans ?_ (ih next)
        unfold work? at hwork
        split at hwork
        next due hdue =>
          cases hwork
          exact world.meet_leads hhost due
        next =>
          split at hwork
          next exchange hunsent =>
            cases hwork
            exact world.send_leads hhost exchange
          next =>
            obtain ⟨due, -, rfl⟩ := Option.map_eq_some_iff.mp hwork
            exact world.meet_leads hhost due
      next => exact .refl

theorem advance_leads (ms : Nat) :
    world.engine.Leads (world.advance host ms).engine :=
  world.workOff_leads hhost _ _

theorem stop_leads : world.engine.Leads (world.stop host).engine :=
  (Engine.Leads.perform world.engine 0 .stop).trans
    (world.apply_leads hhost world.engine.stop)

omit hhost in
theorem start_leads {world next : World κ γ σ}
    (hstart : world.start = .ok next) :
    world.engine.Leads next.engine := by
  unfold start at hstart
  cases hengine : world.engine.start with
  | error error =>
      rw [hengine] at hstart
      cases hstart
  | ok engine =>
      rw [hengine] at hstart
      cases hstart
      exact .start hengine

end World

theorem load_state {ρ τ : Type} {motive : τ → τ → Prop}
    (hrefl : ∀ state, motive state state) {start : τ → Except Error τ}
    (hstart : ∀ state after, start state = .ok after → motive state after)
    (reactor : Reactor ρ) (runnable : ρ) (state : τ) :
    motive state (reactor.load runnable start state).2.1 := by
  unfold Reactor.load
  split
  next => exact hrefl state
  next =>
    split
    next => exact hrefl state
    next after hafter => exact hstart state after hafter

theorem unload_state {ρ τ : Type} {motive : τ → τ → Prop}
    (hrefl : ∀ state, motive state state) {stop : ρ → τ → τ}
    (hstop : ∀ runnable state, motive state (stop runnable state))
    (reactor : Reactor ρ) (id : Nat) (state : τ) :
    motive state (reactor.unload id stop state).2.1 := by
  unfold Reactor.unload
  split
  next => exact hrefl state
  next => exact hstop _ state

theorem Request.perform_leads (request : Request) (context : Ticket → γ)
    (now : Nat) (engine : Engine κ γ) (caller : κ) :
    engine.Leads (request.perform context now engine caller).1 := by
  obtain ⟨question, tag, flags, next?⟩ := request
  cases question with
  | error error => exact .refl
  | ok question =>
      have hleads := Engine.Leads.perform engine now
        (.resolve question caller (context ⟨tag, next?⟩) flags)
      simp only [Engine.perform] at hleads
      rw [perform]
      split
      all_goals
        next hresolve =>
          rw [hresolve] at hleads
          exact hleads

theorem Desk.host_isCaller : Desk.host.IsCaller := by
  rintro now ⟨⟨caller, context⟩, answer⟩ ⟨engine, desk⟩
  cases context with
  | query context => cases caller <;> exact .refl
  | guest ticket =>
      cases caller with
      | server => exact .refl
      | guest caller =>
          obtain ⟨tag, next?⟩ := ticket
          cases next? with
          | none => exact .refl
          | some next => exact next.perform_leads ..

namespace Session

inductive Call where
  | start
  | stop
  | advance (ms : Nat)
  | resolve (caller : String) (request : Request)
  | cancel (caller : String)
  | lookup (question : Question)
  | request (bytes : Octets) (responder : Responder)
  | clearRecords

def obey (session : Session) : Call → Session
  | .start => session.start.1
  | .stop => session.stop.1
  | .advance ms => session.advance ms
  | .resolve caller request => (session.resolve caller request).1
  | .cancel caller => (session.cancel caller).1
  | .lookup question => (session.lookup question).1
  | .request bytes responder =>
      ((session.request? bytes responder).map Prod.fst).getD session
  | .clearRecords => session.clearRecords

theorem request?_leads (session : Session) (bytes : Octets)
    (responder : Responder) :
    session.engine.Leads
      (((session.request? bytes responder).map Prod.fst).getD
        session).engine := by
  cases hdecode : Message.decode? bytes with
  | none => simpa [request?, hdecode] using .refl
  | some message =>
      simp only [request?, hdecode, Option.bind_some, Option.map_some,
        Option.getD_some, engine, bind, pure]
      rw [Server.handle_engine]
      split
      next => exact .refl
      next inquiry question hasked =>
        exact .perform session.world.engine session.world.now
          (.resolve question .server _ _)

theorem obey_leads (session : Session) (call : Call) :
    session.engine.Leads (session.obey call).engine := by
  let leads (world next : World (Party String) (Parcel Ticket) Desk) : Prop :=
    world.engine.Leads next.engine
  cases call with
  | start =>
      have hstate := load_state (motive := leads) (fun _ => .refl)
        (fun _ _ => World.start_leads) session.reactor () session.world
      simp only [obey, start]
      split <;> exact hstate
  | stop =>
      cases hlast : session.last? with
      | none => simpa [obey, stop, hlast] using .refl
      | some id =>
          simp only [obey, stop, hlast]
          exact unload_state (motive := leads) (fun _ => .refl)
            (fun _ world => world.stop_leads Desk.host_isCaller) _ id _
  | advance ms => exact session.world.advance_leads Desk.host_isCaller ms
  | resolve caller request => exact request.perform_leads ..
  | cancel caller =>
      exact .perform session.world.engine 0 (.cancel (.guest caller))
  | lookup question =>
      exact .perform session.world.engine session.world.now (.lookup question)
  | request bytes responder => exact session.request?_leads bytes responder
  | clearRecords => exact .refl

/-- The engine of a session is one that events have made of a new one. -/
theorem engine_of_calls (settings : Settings) (nameServers : NameServers)
    (server : Server) (calls : List Call) :
    (Engine.create settings messageIds).Leads
      (calls.foldl obey (create settings nameServers server)).engine := by
  induction calls using List.reverseRecOn with
  | nil => exact .refl
  | append_singleton calls call ih =>
      rw [List.foldl_append]
      exact ih.trans (obey_leads _ call)

theorem armed_of_calls (settings : Settings) (nameServers : NameServers)
    (server : Server) (calls : List Call) :
    (calls.foldl obey (create settings nameServers server)).engine.Armed :=
  (engine_of_calls settings nameServers server calls).armed
    (Engine.create_armed settings messageIds)

end Session

namespace ListenerSession

inductive Call where
  | boot
  | stop
  | restart (endpoint : Endpoint)
  | behind (call : Session.Call)

def obey (session : ListenerSession) : Call → ListenerSession
  | .boot => session.boot.1
  | .stop => session.stop.1
  | .restart endpoint => (session.restart endpoint).1
  | .behind call => { session with session := session.session.obey call }

theorem start_world (session : ListenerSession) :
    session.start.1.session.world = session.session.world := by
  simp only [start, load]
  split <;> rfl

theorem obey_leads (session : ListenerSession) (call : Call) :
    session.session.engine.Leads (session.obey call).session.engine := by
  cases call with
  | boot =>
      have hleads := session.session.obey_leads .start
      simp only [Session.obey] at hleads
      simp only [obey, boot]
      split
      next =>
        simp only [Session.engine, start_world]
        exact hleads
      next => exact hleads
  | stop =>
      simp only [obey, stop]
      split <;> exact .refl
  | restart endpoint =>
      have hworld := start_world { session with endpoint }
      simp only [obey, restart, Session.engine, hworld]
      exact .refl
  | behind call => exact session.session.obey_leads call

theorem calls_lead (session : ListenerSession) (calls : List Call) :
    session.session.engine.Leads (calls.foldl obey session).session.engine := by
  induction calls generalizing session with
  | nil => exact .refl
  | cons call calls ih => exact (obey_leads session call).trans (ih _)

end ListenerSession

end Simulation

end DnsForwarder
