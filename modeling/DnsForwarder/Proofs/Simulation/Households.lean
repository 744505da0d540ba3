import DnsForwarder.Proofs.Reactor.Traffic
import DnsForwarder.Proofs.Simulation.Reach
import DnsForwarder.Simulation.ClientSession
import DnsForwarder.Simulation.DispatcherSession

/-! Clients and whole households come to their engines by events as well. -/

namespace DnsForwarder

variable {κ : Type} [DecidableEq κ]

namespace Simulation

namespace ClientWorld

theorem clientHost_isCaller : clientHost.IsCaller :=
  fun _ _ _ => .refl

theorem submit_leads (adapter : ClientAdapter κ) (engine : Engine κ Nat)
    (now : Nat) (request : ClientRequest) :
    engine.Leads (adapter.submit engine now request).2 := by
  have hleads := Engine.Leads.perform engine now
    (.resolve request.question adapter.caller adapter.nextToken request.flags)
  simp only [Engine.perform] at hleads
  simp only [ClientAdapter.submit]
  split
  all_goals
    next hresolve =>
      rw [hresolve] at hleads
      exact hleads

theorem drain_leads (now count : Nat) (bridge : Bridge ClientRequest)
    (state : ClientAdapter κ × Engine κ Nat) :
    state.2.Leads (ClientAdapter.drain now count bridge state).2.2 := by
  induction count generalizing bridge state with
  | zero => exact .refl
  | succ count ih =>
      simp only [ClientAdapter.drain]
      refine .trans ?_ (ih _ _)
      unfold ClientAdapter.drainOne
      split
      next => exact .refl
      next => exact submit_leads ..

theorem work_leads (client : Client κ) (engine : Engine κ Nat) (now : Nat) :
    engine.Leads (client.work engine now).2 := by
  have hwork (wakes : Nat) (bridge : Bridge ClientRequest)
      (state : ClientAdapter κ × Engine κ Nat) :
      state.2.Leads
        (Bridge.work (ClientAdapter.drainAll now) wakes bridge state).2.2 := by
    induction wakes generalizing bridge state with
    | zero => exact .refl
    | succ wakes ih =>
        simp only [Bridge.work]
        split
        next => exact (drain_leads ..).trans (ih _ _)
        next => exact .refl
  simp only [Client.work]
  exact hwork _ client.bridge (client.adapter, engine)

variable (world : ClientWorld)

theorem wake_leads : world.engine.Leads world.wake.engine :=
  work_leads ..

theorem stopClient_leads : world.engine.Leads world.stopClient.engine :=
  .perform world.engine 0 (.cancel _)

theorem ask_leads (question : Question) (flags : Flags) :
    world.engine.Leads (world.ask question flags).1.engine := by
  let asking := world.setClient (world.client.request question flags).1
  exact asking.wake_leads.trans
    (World.workOff_leads clientHost_isCaller asking.wake _ _)

theorem startClient_leads {next : ClientWorld}
    (hstart : world.startClient = .ok next) :
    world.engine.Leads next.engine := by
  unfold startClient at hstart
  cases hclient : world.client.start with
  | error error =>
      rw [hclient] at hstart
      cases hstart
  | ok client =>
      rw [hclient] at hstart
      cases hstart
      exact .refl

end ClientWorld

namespace Household

variable {origin : Engine (Option String) Nat} {household : Household}

def IsLed (origin : Engine (Option String) Nat) (household : Household) :
    Prop :=
  ∀ world ∈ household.worlds, origin.Leads world.engine

theorem IsLed.modify (hled : household.IsLed origin) (client : Nat)
    {act : ClientWorld → ClientWorld}
    (hact : ∀ world : ClientWorld, origin.Leads world.engine →
      origin.Leads (act world).engine) :
    (household.update client act).IsLed origin := by
  intro world hworld
  obtain ⟨position, hposition⟩ := List.mem_iff_getElem?.mp hworld
  rw [Household.update, List.getElem?_modify] at hposition
  obtain ⟨old, hold, rfl⟩ := Option.map_eq_some_iff.mp hposition
  have hleads := hled old (List.mem_of_getElem? hold)
  split
  next => exact hact old hleads
  next => exact hleads

theorem IsLed.update (hled : household.IsLed origin) (client : Nat)
    {act : ClientWorld → ClientWorld}
    (hact : ∀ world : ClientWorld, world.engine.Leads (act world).engine) :
    (household.update client act).IsLed origin :=
  hled.modify client fun world hworld => hworld.trans (hact world)

theorem IsLed.change (hled : household.IsLed origin) {client : Nat}
    {act : ClientWorld → Except Error ClientWorld} {next : Household}
    (hact : ∀ world after : ClientWorld, act world = .ok after →
      world.engine.Leads after.engine)
    (hnext : household.change client act = .ok next) : next.IsLed origin := by
  unfold Household.change at hnext
  split at hnext
  next =>
    cases hnext
    exact hled
  next world hworld =>
    cases hafter : act world with
    | error error =>
        rw [hafter] at hnext
        cases hnext
    | ok after =>
        rw [hafter] at hnext
        cases hnext
        intro other hother
        rcases List.mem_or_eq_of_mem_set hother with hold | rfl
        · exact hled other hold
        · exact (hled world (List.mem_of_getElem? hworld)).trans
            (hact world _ hafter)

theorem IsLed.start (hled : household.IsLed origin) {resident : Resident}
    {next : Household} (hnext : Household.start resident household = .ok next) :
    next.IsLed origin := by
  cases resident with
  | component component =>
      cases hlog : component.start household.log with
      | error error =>
          rw [Household.start, hlog] at hnext
          cases hnext
      | ok log =>
          rw [Household.start, hlog] at hnext
          cases hnext
          exact hled
  | engine client => exact hled.change (fun _ _ => World.start_leads) hnext
  | client client =>
      exact hled.change (fun world _ => world.startClient_leads) hnext

theorem IsLed.stop (hled : household.IsLed origin) (resident : Resident) :
    (Household.stop resident household).IsLed origin := by
  cases resident with
  | component component => exact hled
  | engine client =>
      exact hled.update client fun world =>
        World.stop_leads ClientWorld.clientHost_isCaller world
  | client client => exact hled.update client ClientWorld.stopClient_leads

theorem IsLed.load (hled : household.IsLed origin) (resident : Resident)
    (reactor : Reactor Resident) :
    (resident.load reactor household).2.1.IsLed origin :=
  load_state (motive := fun before after => before.IsLed origin →
      after.IsLed origin)
    (fun _ => id) (fun _ _ hstart hbefore => hbefore.start hstart) reactor
    resident household hled

theorem IsLed.unload (hled : household.IsLed origin) (id : Nat)
    (reactor : Reactor Resident) :
    (Resident.unload id reactor household).2.1.IsLed origin :=
  unload_state (motive := fun before after => before.IsLed origin →
      after.IsLed origin)
    (fun _ hbefore => hbefore) (fun resident _ hbefore => hbefore.stop resident)
    reactor id household hled

end Household

namespace ClientSession

inductive Call where
  | startEngine
  | stopEngine
  | install
  | request (question : Except Error Question) (flags : Flags)
  | shutdown
  | drop (future : Nat)
  | collect
  | advance (ms : Nat)
  | cancel (caller : String)
  | lookup (question : Question)
  | clearRecords

def obey (session : ClientSession) : Call → ClientSession
  | .startEngine => session.startEngine.1
  | .stopEngine => session.stopEngine.1
  | .install => session.install.toOption.getD session
  | .request question flags => (session.request question flags).1
  | .shutdown => session.shutdown
  | .drop future => (session.drop future).1
  | .collect => session.collect.1
  | .advance ms => session.advance ms
  | .cancel caller => (session.cancel caller).1
  | .lookup question => (session.lookup question).1
  | .clearRecords => session.clearRecords

variable {origin : Engine (Option String) Nat} {session : ClientSession}

theorem retire_isLed (hled : session.household.IsLed origin) :
    session.retire.household.IsLed origin := by
  simp only [retire]
  split
  next => exact hled
  next id _ =>
    split
    next => exact hled.unload id session.reactor
    next => exact hled

theorem obey_isLed (hled : session.household.IsLed origin) (call : Call) :
    (session.obey call).household.IsLed origin := by
  cases call with
  | startEngine =>
      have hloaded := hled.load (.engine position) session.reactor
      simp only [obey, startEngine]
      split <;> exact hloaded
  | stopEngine =>
      cases hengine : session.engineId? with
      | none => simpa [obey, stopEngine, hengine] using hled
      | some id =>
          simp only [obey, stopEngine, hengine]
          exact hled.unload id session.reactor
  | install =>
      have hloaded := hled.load (.client position) session.reactor
      simp only [obey, install]
      cases ((Resident.client position).load session.reactor
        session.household).2.2 with
      | error error => exact hled
      | ok id => exact hloaded
  | request question flags =>
      simp only [obey, request]
      split
      next => exact hled
      next => exact hled.update position fun _ => .refl
  | shutdown => exact hled.update position fun _ => .refl
  | drop future => exact hled
  | collect => exact hled
  | advance ms =>
      have hwoken : (session.update ClientWorld.wake).household.IsLed origin :=
        hled.update position ClientWorld.wake_leads
      exact (retire_isLed hwoken).update position fun world =>
        World.advance_leads ClientWorld.clientHost_isCaller world ms
  | cancel caller =>
      exact hled.update position fun world =>
        .perform world.engine 0 (.cancel (some caller))
  | lookup question =>
      exact hled.update position fun world =>
        .perform world.engine world.now (.lookup question)
  | clearRecords => exact hled.update position fun _ => .refl

/-- The engine of a session is one that events have made of a new one. -/
theorem engine_of_calls (settings : Settings) (nameServers : NameServers)
    (calls : List Call) :
    ((calls.foldl obey (create settings nameServers)).household).IsLed
      (.create settings messageIds) := by
  induction calls using List.reverseRecOn with
  | nil =>
      intro world hworld
      rw [List.mem_singleton.mp hworld]
      exact .refl
  | append_singleton calls call ih =>
      rw [List.foldl_append]
      exact obey_isLed ih call

end ClientSession

end Simulation

namespace Dispatcher

variable {ρ τ α : Type} {dispatcher : Dispatcher ρ τ} {P : τ → Prop}

/-- Something holds of the state of a dispatcher, and all queued tasks keep
it. -/
structure Keeps (P : τ → Prop) (dispatcher : Dispatcher ρ τ) : Prop where
  state : P dispatcher.state
  tasks : ∀ task ∈ dispatcher.tasks.items, ∀ site, P site.2 → P (task site).2

theorem foldl_keeps {tasks : List (ReactorTask ρ τ)}
    (htasks : ∀ task ∈ tasks, ∀ site, P site.2 → P (task site).2)
    {site : Reactor ρ × τ} (hsite : P site.2) :
    P (tasks.foldl (fun site task => task site) site).2 := by
  induction tasks generalizing site with
  | nil => exact hsite
  | cons task tasks ih =>
      obtain ⟨htask, hrest⟩ := List.forall_mem_cons.mp htasks
      exact ih hrest (htask site hsite)

theorem Keeps.execute (hkeeps : dispatcher.Keeps P) {task : ReactorTask ρ τ}
    (htask : ∀ site, P site.2 → P (task site).2) {next : Dispatcher ρ τ}
    (hnext : dispatcher.execute task = .ok next) : next.Keeps P := by
  unfold Dispatcher.execute Bridge.produce Bridge.push at hnext
  split at hnext
  next => cases hnext
  next =>
    split at hnext
    next => cases hnext
    next tasks hproduced =>
      cases hnext
      split at hproduced
      next => cases hproduced
      next =>
        cases hproduced
        refine ⟨hkeeps.state, ?_⟩
        intro other hother
        simp only at hother
        have hmem : other ∈ dispatcher.tasks.items ++ [task] := by
          split at hother
          · rwa [Bridge.notify_items] at hother
          · exact hother
        rcases List.mem_append.mp hmem with hold | hnew
        · exact hkeeps.tasks other hold
        · exact List.mem_singleton.mp hnew ▸ htask

variable {stop : ρ → τ → τ}
  (hstop : ∀ runnable state, P state → P (stop runnable state))
include hstop

theorem Keeps.finish (hkeeps : dispatcher.Keeps P) :
    (dispatcher.finish stop).Keeps P := by
  constructor
  · change P (List.foldr (fun loaded state => stop loaded.2 state)
      dispatcher.state dispatcher.reactor.runnables)
    induction dispatcher.reactor.runnables with
    | nil => exact hkeeps.state
    | cons loaded rest ih => exact hstop loaded.2 _ ih
  · intro task htask
    simp only [Dispatcher.finish, Bridge.close] at htask
    split at htask
    next => exact hkeeps.tasks task htask
    next => simp at htask

theorem Keeps.turn (hkeeps : dispatcher.Keeps P) :
    (dispatcher.turn stop).Keeps P := by
  have hworked (tasks : Bridge (ReactorTask ρ τ)) (site : Reactor ρ × τ)
      (hworked : Bridge.work runBatch 1 dispatcher.tasks
        (dispatcher.reactor, dispatcher.state) = (tasks, site)) :
      Keeps P
        { dispatcher with tasks, reactor := site.1, state := site.2 } := by
    simp only [Bridge.work] at hworked
    split at hworked
    next =>
      cases hworked
      refine ⟨foldl_keeps ?_ hkeeps.state, nofun⟩
      rw [Bridge.poll_items]
      exact hkeeps.tasks
    next =>
      cases hworked
      refine ⟨hkeeps.state, ?_⟩
      simp only [Bridge.poll_items]
      exact hkeeps.tasks
  unfold Dispatcher.turn
  split
  next => exact hkeeps
  next =>
    split
    next => exact hkeeps.finish hstop
    next =>
      split
      next tasks reactor state hsite =>
        have hlater := hworked tasks (reactor, state) hsite
        simp only
        split
        next => exact hlater.finish hstop
        next => exact hlater

theorem Keeps.call (hkeeps : dispatcher.Keeps P)
    {task : Reactor ρ × τ → (Reactor ρ × τ) × α}
    (htask : ∀ site, P site.2 → P (task site).1.2) :
    (dispatcher.call stop task).1.Keeps P := by
  simp only [Dispatcher.call]
  split
  next => exact hkeeps
  next queued hqueued => exact (hkeeps.execute htask hqueued).turn hstop

end Dispatcher

namespace Simulation.DispatcherSession

inductive Call where
  | greet (value : Int)
  | count
  | timer
  | execute (tags : List String)
  | load (component : Component)
  | unload (position : Nat)
  | nested
  | stop
  | stopThenLoad
  | turn
  | spawn
  | resolve (question : Question) (flags : Flags)
  | shutdownClient
  | clearLog

def obey (session : DispatcherSession) : Call → DispatcherSession
  | .greet value => (session.greet value).1
  | .count => session.count.1
  | .timer => session.timer.1
  | .execute tags => (session.execute tags).1
  | .load component => (session.load component).1
  | .unload position => (session.unload position).1
  | .nested => session.nested.1
  | .stop => session.stop
  | .stopThenLoad => session.stopThenLoad.1
  | .turn => session.turn
  | .spawn => session.spawn.1
  | .resolve question flags => (session.resolve question flags).1
  | .shutdownClient => session.shutdownClient.1
  | .clearLog => session.clearLog

variable {session : DispatcherSession}

def IsLed (session : DispatcherSession) : Prop :=
  session.dispatcher.Keeps
    (Household.IsLed (.create session.settings messageIds))

theorem IsLed.call {α : Type} (hled : session.IsLed) {task : Hall → Hall × α}
    (htask : ∀ hall : Hall,
      hall.2.IsLed (.create session.settings messageIds) →
        (task hall).1.2.IsLed (.create session.settings messageIds)) :
    (session.call task).1.IsLed :=
  Dispatcher.Keeps.call (fun resident _ hstate => hstate.stop resident) hled
    htask

theorem IsLed.turn (hled : session.IsLed) : session.turn.IsLed :=
  Dispatcher.Keeps.turn (fun resident _ hstate => hstate.stop resident) hled

theorem IsLed.withHousehold (hled : session.IsLed) {household : Household}
    (hhousehold : household.IsLed (.create session.settings messageIds)) :
    (session.setHousehold household).IsLed :=
  ⟨hhousehold, hled.tasks⟩

theorem IsLed.execute (hled : session.IsLed) (tags : List String) :
    (session.execute tags).1.IsLed := by
  have hqueue (tags : List String)
      (dispatcher next : Dispatcher Resident Household)
      (hkeeps : dispatcher.Keeps
        (Household.IsLed (.create session.settings messageIds)))
      (hnext : tags.foldlM (fun dispatcher tag =>
        dispatcher.execute (logTask s!"ran {tag}")) dispatcher = .ok next) :
      next.Keeps (Household.IsLed (.create session.settings messageIds)) := by
    induction tags generalizing dispatcher with
    | nil =>
        cases hnext
        exact hkeeps
    | cons tag tags ih =>
        obtain ⟨queued, hqueued, hrest⟩ := Message.bind_eq_ok.mp hnext
        have hlog : ∀ hall : Hall,
            hall.2.IsLed (.create session.settings messageIds) →
              (logTask s!"ran {tag}" hall).2.IsLed
                (.create session.settings messageIds) := fun _ hhall => hhall
        exact ih queued (hkeeps.execute hlog hqueued) hrest
  simp only [DispatcherSession.execute]
  split
  next => exact hled
  next next hnext =>
    exact (hqueue tags session.dispatcher next hled hnext).turn
      fun resident _ hstate => hstate.stop resident

theorem loadTask_isLed {origin : Engine (Option String) Nat}
    (resident : Resident) {hall : Hall} (hled : hall.2.IsLed origin) :
    (loadTask resident hall).1.2.IsLed origin :=
  hled.load resident hall.1

theorem unloadTask_isLed {origin : Engine (Option String) Nat} (id : Nat)
    {hall : Hall} (hled : hall.2.IsLed origin) :
    (unloadTask id hall).1.2.IsLed origin :=
  hled.unload id hall.1

theorem spawnTask_isLed {origin : Engine (Option String) Nat}
    {world : ClientWorld} (hworld : origin.Leads world.engine) {hall : Hall}
    (hled : hall.2.IsLed origin) : (spawnTask world hall).1.2.IsLed origin := by
  have hadded : (hall.2.add world).IsLed origin := by
    intro other hother
    rcases List.mem_append.mp hother with hold | hnew
    · exact hled other hold
    · exact List.mem_singleton.mp hnew ▸ hworld
  have hengine : (loadTask (.engine hall.2.worlds.length)
      (hall.1, hall.2.add world)).1.2.IsLed origin := loadTask_isLed _ hadded
  simp only [spawnTask]
  split
  next hloaded =>
    rw [hloaded] at hengine
    exact hengine
  next after engineId hloaded =>
    rw [hloaded] at hengine
    have hclient := loadTask_isLed (.client hall.2.worlds.length) hengine
    split
    next hcame =>
      rw [hcame] at hclient
      exact hclient
    next hfailed =>
      rw [hfailed] at hclient
      exact unloadTask_isLed engineId hclient

theorem IsLed.resolve (hled : session.IsLed) (question : Question)
    (flags : Flags) : (session.resolve question flags).1.IsLed := by
  have hturned := hled.turn
  simp only [DispatcherSession.resolve]
  split
  next => exact hturned
  next spawned _ =>
    split
    next => exact hturned
    next world hworld =>
      have hleads := hturned.state world (List.mem_of_getElem? hworld)
      exact hturned.withHousehold (Household.IsLed.modify hturned.state _
        fun _ _ => hleads.trans (world.ask_leads question flags))

theorem IsLed.obey (hled : session.IsLed) (call : Call) :
    (session.obey call).IsLed := by
  cases call with
  | greet | count | timer | nested => exact hled.call fun _ hhall => hhall
  | execute tags => exact hled.execute tags
  | load component => exact hled.call fun _ => loadTask_isLed _
  | unload position =>
      refine hled.call fun hall hhall => ?_
      split
      next => exact hhall
      next id _ => exact unloadTask_isLed id hhall
  | stop => exact ⟨hled.state, hled.tasks⟩
  | stopThenLoad =>
      refine hled.call fun hall hhall => ?_
      have hstopped : Household.IsLed _ (hall.1.stop, hall.2).2 := hhall
      exact loadTask_isLed (.component ⟨"late", false⟩) hstopped
  | turn => exact hled.turn
  | spawn =>
      let world := ClientWorld.ofSettings session.settings session.nameServers
      have hworld : (Engine.create session.settings messageIds).Leads
          world.engine := .refl
      have hspawned : (session.call (spawnTask world)).1.IsLed :=
        hled.call fun _ => spawnTask_isLed hworld
      simp only [DispatcherSession.obey, DispatcherSession.spawn]
      split <;> exact hspawned
  | resolve question flags => exact hled.resolve question flags
  | shutdownClient =>
      simp only [DispatcherSession.obey, shutdownClient]
      split
      next => exact hled
      next spawned _ =>
        let close (world : ClientWorld) := world.setClient world.client.shutdown
        have hclosed : (session.household.update spawned.position close).IsLed
            (.create session.settings messageIds) :=
          Household.IsLed.update hled.state spawned.position fun _ => .refl
        refine (hled.withHousehold hclosed).call fun hall hhall => ?_
        exact unloadTask_isLed _ (unloadTask_isLed spawned.clientId hhall)
  | clearLog => exact hled.withHousehold hled.state

/-- The engines of a session are such as events have made of new ones. -/
theorem engines_of_calls (name : String) (settings : Settings)
    (nameServers : NameServers) (calls : List Call) :
    (calls.foldl DispatcherSession.obey
      (create name settings nameServers)).IsLed := by
  induction calls using List.reverseRecOn with
  | nil => exact ⟨nofun, nofun⟩
  | append_singleton calls call ih =>
      rw [List.foldl_append]
      exact ih.obey call

end Simulation.DispatcherSession

end DnsForwarder
