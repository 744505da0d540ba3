import DnsForwarder.Proofs.Message.Pieces
import DnsForwarder.Proofs.Message.Replies
import DnsForwarder.Proofs.Reactor.Errands
import DnsForwarder.Proofs.Reactor.Lifecycle
import DnsForwarder.Server.Startup

/-! The start of a server. Whatever a configuration that passed its checks says,
the settings can be had from it, and where memory holds its cache and its slots,
the engine starts and the listener is loaded behind it. So nothing keeps the
server from its start but the sockets of the machine, a dispatcher that stops,
or want of memory; the checks ask for no more of the two sizes than that they
are not zero. -/

namespace DnsForwarder

namespace Config

variable {config : Config}

structure IsValid (config : Config) : Prop where
  servers : config.dns.servers ≠ []
  endpoints : ∃ endpoints, config.dns.endpoints = .ok endpoints
  timeout : config.dns.queryTimeout ≠ 0
  cache : config.dns.cacheMaxEntries ≠ 0
  pool : config.server.contextPoolSize ≠ 0
  payload : ¬config.server.maxUdpPayload < minUdpPayload
  address : ∃ address, IpAddress.parse? config.server.bindAddress.toList =
    some address

theorem check_eq_ok_iff {p : Prop} [Decidable p] {error : ConfigError}
    {next : Unit → Except ConfigError Unit} :
    (if p then throw error >>= next else next ()) = .ok () ↔ ¬p ∧
      next () = .ok () := by
  split
  next hp =>
    refine ⟨nofun, fun hnot => absurd hp hnot.1⟩
  next hp => exact ⟨fun hnext => ⟨hp, hnext⟩, fun hnext => hnext.2⟩

theorem validate_eq_ok_iff : config.validate = .ok () ↔ config.IsValid := by
  unfold validate
  constructor
  · intro hvalid
    obtain ⟨hservers, hvalid⟩ := check_eq_ok_iff.mp hvalid
    obtain ⟨endpoints, hendpoints, hvalid⟩ := Message.bind_eq_ok.mp hvalid
    obtain ⟨htimeout, hvalid⟩ := check_eq_ok_iff.mp hvalid
    obtain ⟨hcache, hvalid⟩ := check_eq_ok_iff.mp hvalid
    obtain ⟨hpool, hvalid⟩ := check_eq_ok_iff.mp hvalid
    obtain ⟨hpayload, hvalid⟩ := check_eq_ok_iff.mp hvalid
    refine ⟨hservers, ⟨endpoints, hendpoints⟩, htimeout, hcache, hpool,
      hpayload, ?_⟩
    rw [← Option.isSome_iff_exists, Option.isSome_iff_ne_none]
    intro hnone
    simp only [hnone, if_true] at hvalid
    cases hvalid
  · rintro ⟨hservers, ⟨endpoints, hendpoints⟩, htimeout, hcache, hpool,
      hpayload, address, haddress⟩
    have hbind : ¬IpAddress.parse? config.server.bindAddress.toList = none :=
      by simp [haddress]
    refine check_eq_ok_iff.mpr
      ⟨hservers, Message.bind_eq_ok.mpr ⟨endpoints, hendpoints, ?_⟩⟩
    refine check_eq_ok_iff.mpr ⟨htimeout, check_eq_ok_iff.mpr ⟨hcache, ?_⟩⟩
    refine check_eq_ok_iff.mpr ⟨hpool, check_eq_ok_iff.mpr ⟨hpayload, ?_⟩⟩
    exact if_neg hbind

end Config

namespace Dispatcher

variable {ρ σ α : Type} {dispatcher : Dispatcher ρ σ} {stop : ρ → σ → σ}
  {task : Reactor ρ × σ → (Reactor ρ × σ) × α}

/-- The reactor and the state of its components when all queued tasks have
run. -/
def upcoming (dispatcher : Dispatcher ρ σ) : Reactor ρ × σ :=
  (runBatch dispatcher.tasks (dispatcher.reactor, dispatcher.state)).2

/-- Nothing new starts on the dispatcher: it is asked to stop, it has stopped,
or a task that is queued asks it to stop. -/
def Refuses (dispatcher : Dispatcher ρ σ) : Prop :=
  dispatcher.reactor.stopping ∨ dispatcher.tasks.closed ∨
    dispatcher.upcoming.1.stopping

/-- The thread of the dispatcher is there, and sees every task in its queue. -/
structure IsAttended (dispatcher : Dispatcher ρ σ) : Prop where
  unstopped : dispatcher.isStopped = false
  tended : dispatcher.tasks.IsTended
  alert : dispatcher.tasks.items ≠ [] → dispatcher.tasks.IsAlert

theorem create_isAttended (name : String) (state : σ) :
    (create name state : Dispatcher ρ σ).IsAttended :=
  ⟨rfl, ⟨nofun, nofun, nofun⟩, fun hitems => absurd rfl hitems⟩

theorem call_of_shut
    (hshut : dispatcher.reactor.stopping ∨ dispatcher.tasks.closed) :
    dispatcher.call stop task =
      (dispatcher, .error (.dispatcherStopped dispatcher.name)) := by
  have hexecute (task : ReactorTask ρ σ) :
      dispatcher.execute task = .error dispatcher.stoppedError := by
    unfold execute
    split
    next => rfl
    next hrunning =>
      have hclosed := hshut.resolve_left hrunning
      simp only [Bridge.produce, Bridge.push, if_pos hclosed, Except.map]
  rw [call, hexecute]
  rfl

theorem execute_of_open (hrunning : dispatcher.reactor.stopping = false)
    (hopen : dispatcher.tasks.closed = false) (task : ReactorTask ρ σ) :
    ∃ tasks, dispatcher.execute task = .ok { dispatcher with tasks } ∧
      tasks.items = dispatcher.tasks.items ++ [task] ∧ tasks.closed = false ∧
      (dispatcher.IsAttended → tasks.IsTended ∧ tasks.IsAlert) := by
  let pushed :=
    { dispatcher.tasks with items := dispatcher.tasks.items ++ [task] }
  have hpushed (hattended : dispatcher.IsAttended) : pushed.IsTended :=
    ⟨hattended.tended.present, hattended.tended.unended,
      hattended.tended.waiting⟩
  have hproduce : dispatcher.tasks.produce task =
      .ok (if dispatcher.tasks.items.isEmpty then pushed.notify
        else pushed) := by
    simp only [Bridge.produce, Bridge.push, hopen, Bool.false_eq_true, if_false,
      Except.map, pushed]
  simp only [execute, hrunning, Bool.false_eq_true, if_false, hproduce]
  refine ⟨_, rfl, ?_⟩
  split
  next =>
    exact ⟨Bridge.notify_items pushed,
      (Bridge.notify_closed pushed).trans hopen,
      fun hattended => ⟨(hpushed hattended).notify, Bridge.notify_isAlert⟩⟩
  next hsome =>
    refine ⟨rfl, hopen, fun hattended => ⟨hpushed hattended, ?_⟩⟩
    exact hattended.alert fun hnil => hsome (List.isEmpty_iff.mpr hnil)

theorem call_result (hrunning : dispatcher.reactor.stopping = false)
    (hopen : dispatcher.tasks.closed = false) :
    (dispatcher.call stop task).2 = .ok (task dispatcher.upcoming).2 := by
  obtain ⟨tasks, hexecute, -⟩ := execute_of_open hrunning hopen fun state =>
    (task state).1
  rw [call, hexecute]
  rfl

variable (stop) in
theorem call_state (hattended : dispatcher.IsAttended)
    (hrunning : dispatcher.reactor.stopping = false)
    (hopen : dispatcher.tasks.closed = false)
    (hafter : (task dispatcher.upcoming).1.1.stopping = false) :
    ((dispatcher.call stop task).1.reactor,
      (dispatcher.call stop task).1.state) =
      (task dispatcher.upcoming).1 := by
  obtain ⟨tasks, hexecute, hitems, hclosed, hinvariant⟩ :=
    execute_of_open hrunning hopen fun state => (task state).1
  obtain ⟨htended, halert⟩ := hinvariant hattended
  have hhandling := htended.poll_handling hclosed halert
  have hbatch : (runBatch tasks.poll (dispatcher.reactor, dispatcher.state)).2 =
      (task dispatcher.upcoming).1 := by
    rw [runBatch, Bridge.poll_items, hitems, List.foldl_append]
    rfl
  rw [call, hexecute]
  simp only [turn, hattended.unstopped, hrunning, Bool.false_eq_true, if_false,
    Bridge.work, hhandling, if_true, hbatch, hafter]

end Dispatcher

/-- There is room for the cache and the slots that a configuration asks for. -/
structure Memory.Holds (memory : Memory) (config : Config) : Prop where
  cache : config.dns.cacheMaxEntries.toNat ≤ memory.answers
  pool : config.server.contextPoolSize.toNat ≤ memory.slots

theorem Memory.Holds.sizes_le {memory : Memory} {config : Config}
    (hholds : memory.Holds config) :
    16 * config.dns.cacheMaxEntries.toNat ≤ longestPiece ∧
      8 * config.server.contextPoolSize.toNat ≤ longestPiece :=
  ⟨Nat.le_trans (Nat.mul_le_mul_left 16 hholds.cache) memory.answers_le,
    Nat.le_trans (Nat.mul_le_mul_left 8 hholds.pool) memory.slots_le⟩

section Making

variable {κ γ : Type} {memory : Memory} {settings : Settings}
  {ids : Nat → UInt16} {config : ServerConfig} {endpoint : Endpoint}

theorem Engine.create?_of_le
    (hroom : max settings.cacheMaxEntries 1 ≤ memory.answers) :
    (create? memory settings ids : Option (Engine κ γ)) =
      some (create settings ids) := by
  rw [create?, AnswerCache.empty?, if_pos hroom]
  rfl

theorem Engine.create?_eq_none
    (hfull : memory.answers < max settings.cacheMaxEntries 1) :
    (create? memory settings ids : Option (Engine κ γ)) = none := by
  rw [create?, AnswerCache.empty?, if_neg (Nat.not_le_of_lt hfull)]
  rfl

theorem Listener.create?_of_le
    (hroom : config.contextPoolSize.toNat ≤ memory.slots)
    (endpoint : Endpoint) :
    ∃ listener, create? memory config endpoint = some listener ∧
      listener.endpoint = endpoint ∧
      listener.server.pool.available = config.contextPoolSize.toNat := by
  rw [create?, ContextPool.create?, if_pos hroom]
  exact ⟨_, rfl, rfl, List.length_replicate⟩

theorem Listener.create?_eq_none
    (hfull : memory.slots < config.contextPoolSize.toNat)
    (endpoint : Endpoint) : create? memory config endpoint = none := by
  rw [create?, ContextPool.create?, if_neg (Nat.not_le_of_lt hfull)]
  rfl

end Making

section Parts

variable {μ : Type} {memory : Memory} {network : Network μ}
  {settings : Settings} {ids : Nat → UInt16} {config : ServerConfig}
  {engine started : ServerEngine} {listener : Listener} {site : Site μ}
  {endpoint : Endpoint} {machine : μ} {error : Error}

theorem bind_of_listen_eq_error
    (hlisten : network.listen endpoint machine = .error error) :
    ∃ protocol socket before, network.bind protocol socket before =
      .error error := by
  unfold Network.listen at hlisten
  cases hudp : network.bind .udp endpoint machine with
  | error reason =>
      rw [hudp] at hlisten
      cases hlisten
      exact ⟨_, _, _, hudp⟩
  | ok taken =>
      obtain ⟨after, bound⟩ := taken
      rw [hudp] at hlisten
      change ((network.bind .tcp bound after).bind _) = _ at hlisten
      cases htcp : network.bind .tcp bound after with
      | error reason =>
          rw [htcp] at hlisten
          cases hlisten
          exact ⟨_, _, _, htcp⟩
      | ok both =>
          rw [htcp] at hlisten
          cases hlisten

theorem addEngine_eq (hstart : engine.start = .ok started)
    (premises : Premises μ) :
    premises.addEngine engine =
      .ok { premises with
            stations := premises.stations ++ [{ engine := started }] } := by
  rw [Premises.addEngine, hstart]
  rfl

def Premises.serving (premises : Premises μ) (machine : μ)
    (engine : ServerEngine) (listener : Listener) : Premises μ :=
  ⟨machine, premises.stations ++ [{ engine, listener? := some listener }]⟩

def Site.withEngine (site : Site μ) (engine : ServerEngine) : Site μ :=
  (site.1.loaded (.engine site.2.stations.length),
    { site.2 with stations := site.2.stations ++ [{ engine }] })

theorem loadListener_of_refused {station : Nat}
    (hrunning : site.1.stopping = false)
    (hlisten : network.listen listener.endpoint site.2.machine = .error error) :
    loadListener network station listener site = (site, .error error) := by
  obtain ⟨reactor, premises⟩ := site
  have hadd : premises.addListener network station listener = .error error := by
    simp only [Premises.addListener, Listener.start, hlisten]
    rfl
  simp only [loadListener, Reactor.load_of_failed hrunning hadd]

theorem loadListener_of_bound {after : μ} {bound : Endpoint}
    (hrunning : site.1.stopping = false)
    (hlisten : network.listen listener.endpoint site.2.machine =
      .ok (after, bound)) :
    loadListener network site.2.stations.length listener
        (site.withEngine engine) =
      (((site.withEngine engine).1.loaded (.listener site.2.stations.length),
        site.2.serving after engine { listener with bound? := some bound }),
        .ok bound) := by
  obtain ⟨reactor, machine, stations⟩ := site
  have hadd : Premises.addListener network stations.length listener
      (Site.withEngine (reactor, ⟨machine, stations⟩) engine).2 =
        .ok (Premises.serving ⟨machine, stations⟩ after engine
          { listener with bound? := some bound }) := by
    simp only [Premises.addListener, Listener.start, Site.withEngine, hlisten]
    simp [List.modify_eq_take_drop, Premises.serving]
  have hstill :
      (Site.withEngine (reactor, ⟨machine, stations⟩) engine).1.stopping =
        false := hrunning
  simp only [loadListener, Reactor.load_of_started hstill hadd,
    Premises.bound?, Premises.serving, List.getElem?_concat_length]
  rfl

theorem loadParts_of_full
    (hfull : (Engine.create? memory settings ids : Option ServerEngine) =
      none) :
    loadParts memory network settings ids config endpoint site =
      (site, .error .noRoom) := by
  obtain ⟨reactor, premises⟩ := site
  simp only [loadParts, hfull]

theorem loadParts_of_stopping
    (hengine : Engine.create? memory settings ids = some engine)
    (hstopping : site.1.stopping) :
    loadParts memory network settings ids config endpoint site =
      (site, .error (.refused (.dispatcherStopped site.1.name))) := by
  obtain ⟨reactor, premises⟩ := site
  simp only [loadParts, hengine, Reactor.load_of_stopping hstopping]

theorem loadParts_of_running
    (hengine : Engine.create? memory settings ids = some engine)
    (hstart : engine.start = .ok started) (hrunning : site.1.stopping = false) :
    loadParts memory network settings ids config endpoint site =
      match Listener.create? memory config endpoint with
      | none => (site.withEngine started, .error .noRoom)
      | some listener =>
          let (site, result) := loadListener network site.2.stations.length
            listener (site.withEngine started)
          (site, result.mapError .refused) := by
  obtain ⟨reactor, premises⟩ := site
  simp only [loadParts, hengine,
    Reactor.load_of_started hrunning (addEngine_eq hstart premises)]
  rfl

variable (hengine : Engine.create? memory settings ids = some engine)
  (hstart : engine.start = .ok started) (hrunning : site.1.stopping = false)
  (hlistener : Listener.create? memory config endpoint = some listener)
include hengine hstart hrunning hlistener

theorem loadParts_of_refused
    (hlisten : network.listen listener.endpoint site.2.machine = .error error) :
    loadParts memory network settings ids config endpoint site =
      (site.withEngine started, .error (.refused error)) := by
  have hstill : (site.withEngine started).1.stopping = false := hrunning
  rw [loadParts_of_running hengine hstart hrunning, hlistener]
  simp only [loadListener_of_refused hstill hlisten]
  rfl

theorem loadParts_of_bound {after : μ} {bound : Endpoint}
    (hlisten : network.listen listener.endpoint site.2.machine =
      .ok (after, bound)) :
    loadParts memory network settings ids config endpoint site =
      (((site.withEngine started).1.loaded (.listener site.2.stations.length),
        site.2.serving after started { listener with bound? := some bound }),
        .ok bound) := by
  rw [loadParts_of_running hengine hstart hrunning, hlistener]
  simp only [loadListener_of_bound hrunning hlisten]
  rfl

end Parts

theorem Server.udp_responseLimit {payload : UInt16}
    (hpayload : ¬payload < Config.minUdpPayload)
    (extension? : Option Message.Extension) :
    plainUdpPayload ≤ responseLimit payload .udp extension? ∧
      responseLimit payload .udp extension? ≤ payload.toNat := by
  have hleast : plainUdpPayload ≤ payload.toNat := by
    rw [UInt16.lt_iff_toNat_lt] at hpayload
    exact Nat.le_of_not_lt hpayload
  cases extension? with
  | none => exact ⟨Nat.le_refl _, hleast⟩
  | some extension =>
      exact ⟨Nat.le_max_right _ _,
        Nat.max_le.mpr ⟨Nat.min_le_right _ _, hleast⟩⟩

section Start

variable {μ : Type} {memory : Memory} {network : Network μ}
  {ids : Nat → UInt16} {config : Config} {settings : Settings}
  {address : IpAddress} {dispatcher : Dispatcher ServerPart (Premises μ)}

/-- What the start of a server comes to: it is refused, or its sockets are, or
it serves, or memory does not hold what it needs. -/
structure StartOutcome (memory : Memory) (network : Network μ)
    (ids : Nat → UInt16) (config : Config) (settings : Settings)
    (endpoint : Endpoint)
    (dispatcher : Dispatcher ServerPart (Premises μ)) : Prop where
  refused : memory.Holds config → dispatcher.Refuses → ∃ name,
    (startServer memory network ids config dispatcher).2 =
      .error (.refused (.dispatcherStopped name))
  unbound : memory.Holds config → ¬dispatcher.Refuses → ∀ error,
    network.listen endpoint dispatcher.upcoming.2.machine = .error error →
      (startServer memory network ids config dispatcher).2 =
        .error (.refused error)
  bound : memory.Holds config → ¬dispatcher.Refuses → ∀ machine bound,
    network.listen endpoint dispatcher.upcoming.2.machine =
        .ok (machine, bound) →
      (startServer memory network ids config dispatcher).2 = .ok bound ∧
        (dispatcher.IsAttended → ∃ created engine listener,
          Engine.create? memory settings ids = some created ∧
          created.start = .ok engine ∧
          Listener.create? memory config.server endpoint = some listener ∧
          (startServer memory network ids config dispatcher).1.state =
            dispatcher.upcoming.2.serving machine engine
              { listener with bound? := some bound })
  full : ¬memory.Holds config →
    (startServer memory network ids config dispatcher).2 = .error .noRoom ∨
      dispatcher.Refuses ∧ ∃ name,
        (startServer memory network ids config dispatcher).2 =
          .error (.refused (.dispatcherStopped name))

section Outcome

variable (hsettings : Settings.ofConfig config.dns = .ok settings)
  (haddress : IpAddress.parse? config.server.bindAddress.toList = some address)
include hsettings haddress

theorem startServer_eq :
    startServer memory network ids config dispatcher =
      let call := dispatcher.call (Premises.stop network)
        (loadParts memory network settings ids config.server
          (.ofAddress config.server.dnsPort address))
      (call.1,
        match call.2 with
        | .ok result => result
        | .error error => .error (.refused error)) := by
  simp only [startServer, hsettings, haddress]
  generalize dispatcher.call _ _ = call
  obtain ⟨after, (error | result)⟩ := call <;> rfl

theorem startServer_of_shut
    (hshut : dispatcher.reactor.stopping ∨ dispatcher.tasks.closed) :
    (startServer memory network ids config dispatcher).2 =
      .error (.refused (.dispatcherStopped dispatcher.name)) := by
  rw [startServer_eq hsettings haddress, Dispatcher.call_of_shut hshut]

theorem startServer_of_open (hrunning : dispatcher.reactor.stopping = false)
    (hopen : dispatcher.tasks.closed = false) :
    (startServer memory network ids config dispatcher).2 =
      (loadParts memory network settings ids config.server
        (.ofAddress config.server.dnsPort address) dispatcher.upcoming).2 := by
  simp only [startServer_eq hsettings haddress,
    Dispatcher.call_result hrunning hopen]

theorem startServer_outcome (hservers : settings.servers ≠ [])
    (hcache : settings.cacheMaxEntries = config.dns.cacheMaxEntries.toNat)
    (hsome : 0 < config.dns.cacheMaxEntries.toNat) :
    StartOutcome memory network ids config settings
      (.ofAddress config.server.dnsPort address) dispatcher := by
  have hstart : (Engine.create settings ids : ServerEngine).start = _ :=
    if_neg hservers
  have hmax : max settings.cacheMaxEntries 1 =
      config.dns.cacheMaxEntries.toNat := by omega
  have hmade (hroom : config.dns.cacheMaxEntries.toNat ≤ memory.answers) :
      (Engine.create? memory settings ids : Option ServerEngine) =
        some (.create settings ids) :=
    Engine.create?_of_le (hmax ▸ hroom)
  constructor
  case refused =>
    intro hholds hrefuses
    by_cases hshut : dispatcher.reactor.stopping ∨ dispatcher.tasks.closed
    · exact ⟨_, startServer_of_shut hsettings haddress hshut⟩
    · have hstopping := (or_assoc.mpr hrefuses).resolve_left hshut
      rw [not_or, Bool.not_eq_true, Bool.not_eq_true] at hshut
      rw [startServer_of_open hsettings haddress hshut.1 hshut.2,
        loadParts_of_stopping (hmade hholds.cache) hstopping]
      exact ⟨_, rfl⟩
  case unbound =>
    intro hholds hopen error hlisten
    simp only [Dispatcher.Refuses, not_or, Bool.not_eq_true] at hopen
    obtain ⟨hrunning, hunclosed, hupcoming⟩ := hopen
    obtain ⟨listener, hlistener, hendpoint, -⟩ :=
      Listener.create?_of_le hholds.pool
        (.ofAddress config.server.dnsPort address)
    rw [startServer_of_open hsettings haddress hrunning hunclosed,
      loadParts_of_refused (hmade hholds.cache) hstart hupcoming hlistener
        (hendpoint ▸ hlisten)]
  case bound =>
    intro hholds hopen machine bound hlisten
    simp only [Dispatcher.Refuses, not_or, Bool.not_eq_true] at hopen
    obtain ⟨hrunning, hunclosed, hupcoming⟩ := hopen
    obtain ⟨listener, hlistener, hendpoint, -⟩ :=
      Listener.create?_of_le hholds.pool
        (.ofAddress config.server.dnsPort address)
    have hparts := loadParts_of_bound (hmade hholds.cache) hstart hupcoming
      hlistener (hendpoint ▸ hlisten)
    refine ⟨?_, fun hattended =>
      ⟨_, _, listener, hmade hholds.cache, hstart, hlistener, ?_⟩⟩
    · rw [startServer_of_open hsettings haddress hrunning hunclosed, hparts]
    · have hafter := congrArg (fun result => result.1.1.stopping) hparts
      have hstate := Dispatcher.call_state (Premises.stop network) hattended
        hrunning hunclosed (hafter.trans hupcoming)
      rw [startServer_eq hsettings haddress]
      exact (congrArg Prod.snd hstate).trans
        (congrArg (fun result => result.1.2) hparts)
  case full =>
    intro hfull
    by_cases hshut : dispatcher.reactor.stopping ∨ dispatcher.tasks.closed
    · exact .inr ⟨or_assoc.mp (.inl hshut), _,
        startServer_of_shut hsettings haddress hshut⟩
    · rw [not_or, Bool.not_eq_true, Bool.not_eq_true] at hshut
      rw [startServer_of_open hsettings haddress hshut.1 hshut.2]
      by_cases hroom : config.dns.cacheMaxEntries.toNat ≤ memory.answers
      · -- The engine is made and loaded, unless the reactor is stopping.
        have hslots : memory.slots < config.server.contextPoolSize.toNat :=
          Nat.lt_of_not_le fun hpool => hfull ⟨hroom, hpool⟩
        cases hstopping : dispatcher.upcoming.1.stopping with
        | true =>
            rw [loadParts_of_stopping (hmade hroom) hstopping]
            exact .inr ⟨.inr (.inr hstopping), _, rfl⟩
        | false =>
            rw [loadParts_of_running (hmade hroom) hstart hstopping,
              Listener.create?_eq_none hslots]
            exact .inl rfl
      · rw [loadParts_of_full]
        · exact .inl rfl
        · exact Engine.create?_eq_none (hmax ▸ Nat.lt_of_not_le hroom)

end Outcome

theorem StartOutcome.failure_cases {endpoint : Endpoint}
    {failure : StartFailure}
    (houtcome : StartOutcome memory network ids config settings endpoint
      dispatcher)
    (hfailure : (startServer memory network ids config dispatcher).2 =
      .error failure) :
    (dispatcher.Refuses ∧ ∃ name,
      failure = .refused (.dispatcherStopped name)) ∨
    (∃ protocol socket machine error,
      network.bind protocol socket machine = .error error ∧
        failure = .refused error) ∨
    ¬memory.Holds config ∧ failure = .noRoom := by
  by_cases hholds : memory.Holds config
  · by_cases hrefuses : dispatcher.Refuses
    · obtain ⟨name, hname⟩ := houtcome.refused hholds hrefuses
      exact .inl ⟨hrefuses, name, Except.error.inj (hfailure.symm.trans hname)⟩
    · cases hlisten : network.listen endpoint dispatcher.upcoming.2.machine with
      | error error =>
          have hresult := houtcome.unbound hholds hrefuses error hlisten
          obtain ⟨protocol, socket, machine, hbind⟩ :=
            bind_of_listen_eq_error hlisten
          exact .inr (.inl ⟨protocol, socket, machine, error, hbind,
            Except.error.inj (hfailure.symm.trans hresult)⟩)
      | ok taken =>
          have hresult :=
            (houtcome.bound hholds hrefuses taken.1 taken.2 hlisten).1
          cases hfailure.symm.trans hresult
  · rcases houtcome.full hholds with hroom | ⟨hrefuses, name, hname⟩
    · exact .inr (.inr ⟨hholds, Except.error.inj (hfailure.symm.trans hroom)⟩)
    · exact .inl ⟨hrefuses, name, Except.error.inj (hfailure.symm.trans hname)⟩

end Start

/-- The server of a configuration comes up with the given settings on the given
address, where memory holds what it needs. -/
structure StartsAs (memory : Memory) (config : Config) (settings : Settings)
    (address : IpAddress) : Prop where
  settings_eq : Settings.ofConfig config.dns = .ok settings
  servers_ne_nil : settings.servers ≠ []
  servers_eq : List.Forall₂
    (fun server endpoint => parseServer server = .ok endpoint)
    config.dns.servers settings.servers
  address_eq : IpAddress.parse? config.server.bindAddress.toList = some address
  limits : ∀ (server : Server) (slot : QueryContext) (request : Message)
    (inquiry : Message.Inquiry) (responder : Responder),
    server.maxUdpPayload = config.server.maxUdpPayload →
      responder.protocol = .udp →
      let limit := (server.fill slot request inquiry responder).maxResponseSize
      512 ≤ limit ∧ limit ≤ config.server.maxUdpPayload.toNat
  engine : config.dns.cacheMaxEntries.toNat ≤ memory.answers →
    ∀ {κ γ : Type} (ids : Nat → UInt16), ∃ created engine : Engine κ γ,
      Engine.create? memory settings ids = some created ∧
      created.start = .ok engine ∧ engine.started ∧
      engine.cache.capacity = config.dns.cacheMaxEntries.toNat ∧
      engine.cache.entries = []
  pool : config.server.contextPoolSize.toNat ≤ memory.slots →
    ∀ endpoint, ∃ listener,
      Listener.create? memory config.server endpoint = some listener ∧
      listener.server.pool.available = config.server.contextPoolSize.toNat ∧
      0 < config.server.contextPoolSize.toNat
  outcome : ∀ {μ : Type} (network : Network μ) (ids : Nat → UInt16)
    (dispatcher : Dispatcher ServerPart (Premises μ)),
    StartOutcome memory network ids config settings
      (.ofAddress config.server.dnsPort address) dispatcher
  failures : ∀ {μ : Type} (network : Network μ) (ids : Nat → UInt16)
    (dispatcher : Dispatcher ServerPart (Premises μ)) (failure : StartFailure),
    (startServer memory network ids config dispatcher).2 = .error failure →
      (dispatcher.Refuses ∧ ∃ name,
        failure = .refused (.dispatcherStopped name)) ∨
      (∃ protocol socket machine error,
        network.bind protocol socket machine = .error error ∧
          failure = .refused error) ∨
      ¬memory.Holds config ∧ failure = .noRoom

theorem toNat_pos {size : UInt64} (hsize : size ≠ 0) : 0 < size.toNat :=
  Nat.pos_of_ne_zero fun hzero => hsize (UInt64.toNat_inj.mp hzero)

/-- A configuration that passes its checks comes up. Its servers are taken over
entry by entry, its address can be listened on, and no reply over UDP is allowed
less than every client takes or more than it says. Where memory holds the cache
and the slots that it asks for, the engine starts with a cache of just that size
and there are slots for queries, so that only sockets and a dispatcher that
stops can keep the server from its start. -/
theorem validated_configuration_starts (memory : Memory) {config : Config}
    (hvalid : config.validate = .ok ()) :
    ∃ settings address, StartsAs memory config settings address := by
  obtain ⟨hservers, ⟨endpoints, hendpoints⟩, -, hcache, hpool, hpayload,
    address, haddress⟩ := Config.validate_eq_ok_iff.mp hvalid
  have hsettings : Settings.ofConfig config.dns =
      .ok (.ofServers config.dns endpoints) := by
    rw [Settings.ofConfig, hendpoints]
    rfl
  have hentries := Message.mapM_eq_ok hendpoints
  have hsome : endpoints ≠ [] := by
    rintro rfl
    exact hservers (List.forall₂_nil_right_iff.mp hentries)
  have hmax : max config.dns.cacheMaxEntries.toNat 1 =
      config.dns.cacheMaxEntries.toNat := Nat.max_eq_left (toNat_pos hcache)
  refine ⟨.ofServers config.dns endpoints, address, ?_⟩
  constructor
  case settings_eq => exact hsettings
  case servers_ne_nil => exact hsome
  case servers_eq => exact hentries
  case address_eq => exact haddress
  case limits =>
    intro server slot request inquiry responder hserver hudp
    have hlimit : (server.fill slot request inquiry responder).maxResponseSize =
        Server.responseLimit config.server.maxUdpPayload .udp
          request.extension? := by
      rw [Server.fill, hserver, hudp]
    simp only [hlimit]
    exact Server.udp_responseLimit hpayload request.extension?
  case engine =>
    intro hroom κ γ ids
    exact ⟨_, _, Engine.create?_of_le (Nat.le_trans (Nat.le_of_eq hmax) hroom),
      if_neg hsome, rfl, hmax, rfl⟩
  case pool =>
    intro hroom endpoint
    obtain ⟨listener, hlistener, -, hslots⟩ :=
      Listener.create?_of_le hroom endpoint
    exact ⟨listener, hlistener, hslots, toNat_pos hpool⟩
  case outcome =>
    intro μ network ids dispatcher
    exact startServer_outcome hsettings haddress hsome rfl (toNat_pos hcache)
  case failures =>
    intro μ network ids dispatcher failure
    exact (startServer_outcome hsettings haddress hsome rfl
      (toNat_pos hcache)).failure_cases

section Runs

def freshDispatcher : Dispatcher ServerPart (Premises Sockets) :=
  .create "reactor" { machine := { isLocal := fun _ => true } }

theorem freshDispatcher_not_refuses : ¬freshDispatcher.Refuses := by
  rintro (hstopping | hclosed | hupcoming)
  · cases hstopping
  · cases hclosed
  · cases hupcoming

theorem default_configuration_starts :
    ({} : Config).validate = .ok () ∧ roomyMemory.Holds {} ∧ ∃ settings,
      StartsAs roomyMemory {} settings (.v4 ⟨0, 0, 0, 0⟩) ∧
      settings.servers = [.v4 ⟨8, 8, 8, 8⟩ 53, .v4 ⟨1, 1, 1, 1⟩ 53] ∧
      let start := startServer roomyMemory Sockets.network (fun _ => 0) {}
        freshDispatcher
      start.2 = .ok (.v4 ⟨0, 0, 0, 0⟩ 53) ∧
        start.1.state.stations.length = 1 ∧
        start.1.state.machine.bound =
          [(.udp, .v4 ⟨0, 0, 0, 0⟩ 53), (.tcp, .v4 ⟨0, 0, 0, 0⟩ 53)] := by
  have hvalid : ({} : Config).validate = .ok () := by decide +kernel
  have hholds : roomyMemory.Holds {} := ⟨by decide, by decide⟩
  obtain ⟨settings, address, hstarts⟩ :=
    validated_configuration_starts roomyMemory hvalid
  have haddress : address = .v4 ⟨0, 0, 0, 0⟩ :=
    Option.some.inj (hstarts.address_eq.symm.trans (by decide +kernel))
  have hsettings : settings =
      .ofServers {} [.v4 ⟨8, 8, 8, 8⟩ 53, .v4 ⟨1, 1, 1, 1⟩ 53] :=
    Except.ok.inj (hstarts.settings_eq.symm.trans (by decide +kernel))
  subst haddress
  obtain ⟨hresult, hserves⟩ :=
    (hstarts.outcome Sockets.network _ _).bound hholds
      freshDispatcher_not_refuses _ _ rfl
  obtain ⟨-, engine, listener, -, -, -, hstate⟩ :=
    hserves (Dispatcher.create_isAttended _ _)
  refine ⟨hvalid, hholds, settings, hstarts,
    congrArg Settings.servers hsettings, hresult, ?_, ?_⟩
  · exact congrArg (fun premises => premises.stations.length) hstate
  · exact congrArg (fun premises => premises.machine.bound) hstate

def hugePool : Config :=
  { server := { contextPoolSize := 9223372036854775807 } }

/-- The checks pass any pool that has slots. No memory holds this one, so the
start ends the process although the dispatcher runs and the sockets can be
had. -/
theorem huge_pool_passes_and_never_starts :
    hugePool.validate = .ok () ∧ ¬freshDispatcher.Refuses ∧
      ∀ memory : Memory,
        (startServer memory Sockets.network (fun _ => 0) hugePool
          freshDispatcher).2 = .error .noRoom := by
  have hvalid : hugePool.validate = .ok () := by decide +kernel
  refine ⟨hvalid, freshDispatcher_not_refuses, fun memory => ?_⟩
  have hfull : ¬memory.Holds hugePool := fun hholds =>
    absurd hholds.sizes_le.2 (by decide)
  have hsettings : Settings.ofConfig hugePool.dns =
      .ok (.ofServers {} [.v4 ⟨8, 8, 8, 8⟩ 53, .v4 ⟨1, 1, 1, 1⟩ 53]) := by
    decide +kernel
  have haddress : IpAddress.parse? hugePool.server.bindAddress.toList =
      some (.v4 ⟨0, 0, 0, 0⟩) := by decide +kernel
  have houtcome : StartOutcome memory Sockets.network (fun _ => 0) hugePool _ _
      freshDispatcher :=
    startServer_outcome hsettings haddress (by decide) rfl (by decide)
  exact (houtcome.full hfull).resolve_right fun hrefused =>
    freshDispatcher_not_refuses hrefused.1

end Runs

end DnsForwarder
