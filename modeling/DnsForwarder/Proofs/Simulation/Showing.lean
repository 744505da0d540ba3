import DnsForwarder.Proofs.Simulation.Share
import DnsForwarder.Proofs.Simulation.Work

/-! A simulated world shows the share of a question. Work and calls for the
question take the share on, and everything else leaves it as it is. -/

namespace DnsForwarder

variable {κ γ : Type}

/-- The same follows, but for the server that is asked next. -/
inductive Sequel.Alike : Sequel → Sequel → Prop
  | again (server other : Nat) (protocol : Protocol) (retriesDone : Nat) :
      Alike (.again server protocol retriesDone)
        (.again other protocol retriesDone)
  | answered (answer : Answer) : Alike (.answered answer) (.answered answer)

theorem InFlight.afterVerdict_alike (entry other : InFlight κ γ)
    (hquestion : entry.question = other.question)
    (hretries : entry.retriesDone = other.retriesDone) (settings : Settings)
    (verdict : Verdict) :
    (entry.afterVerdict settings verdict).Alike
      (other.afterVerdict settings verdict) := by
  cases verdict with
  | settled answer => exact .answered answer
  | truncated =>
      simp only [afterVerdict, hretries]
      exact .again ..
  | failed failure =>
      simp only [afterVerdict, afterFailure, hretries, hquestion]
      split
      · exact .again ..
      · exact .answered _

theorem Engine.onEnd_question {engine : Engine κ γ} {now : Nat}
    {question : Question} {generation : Nat} {ending : AttemptEnd}
    {delivery : Delivery κ γ}
    (hdelivery : delivery ∈ (engine.onEnd now question generation ending).2) :
    delivery.answer.question = question := by
  cases hcurrent : engine.current? question generation with
  | none =>
      rw [onEnd_of_stale hcurrent] at hdelivery
      cases hdelivery
  | some entry =>
      rw [onEnd_of_current hcurrent] at hdelivery
      cases hsequel : entry.sequel engine.settings ending with
      | again server protocol retriesDone =>
          rw [hsequel] at hdelivery
          cases hdelivery
      | answered answer =>
          rw [hsequel] at hdelivery
          obtain ⟨waiter, -, rfl⟩ := List.mem_map.mp hdelivery
          exact (InFlight.sequel_question hsequel).trans
            (entry?_question (entry?_of_current? hcurrent).1)

namespace Engine

theorem Armed.alarm_le {engine : Engine κ γ} {alarm : Alarm}
    (harmed : engine.Armed) (halarm : alarm ∈ engine.alarms) :
    alarm.generation ≤ engine.generations := by
  obtain ⟨entry, hentry, hsame⟩ := harmed.entry_of_alarm halarm
  exact hsame ▸ harmed.serves.bounded entry (entry?_mem hentry)

theorem launch_alarm_due {engine : Engine κ γ} {now : Nat}
    {entry : InFlight κ γ} {alarm : Alarm}
    (hbound : ∀ alarm ∈ engine.alarms, alarm.generation ≤ engine.generations)
    (halarm : alarm ∈ (engine.launch now entry).alarms)
    (hgeneration : alarm.generation = engine.generations + 1) :
    alarm.due = now + engine.settings.timeout := by
  rw [launch_alarms, List.mem_append, List.mem_singleton] at halarm
  rcases halarm with hold | rfl
  · have hle := hbound alarm (List.mem_of_mem_filter hold)
    rw [hgeneration] at hle
    exact absurd hle (Nat.not_succ_le_self _)
  · rfl

end Engine

namespace Simulation

theorem Log.about_own {question : Question} {deliveries : List (Delivery κ γ)}
    (now : Nat)
    (hown : ∀ delivery ∈ deliveries, delivery.answer.question = question) :
    about question (ofDeliveries now deliveries) =
      ofDeliveries now deliveries := by
  rw [about_ofDeliveries, List.filter_eq_self.mpr]
  exact fun delivery hdelivery => beq_iff_eq.mpr (hown delivery hdelivery)

theorem Log.about_others {question : Question}
    {deliveries : List (Delivery κ γ)} (now : Nat)
    (hothers : ∀ delivery ∈ deliveries, delivery.answer.question ≠ question) :
    about question (ofDeliveries now deliveries) = [] := by
  rw [about_ofDeliveries, List.filter_eq_nil_iff.mpr]
  · rfl
  · exact fun delivery hdelivery => by simpa using hothers delivery hdelivery

structure Ask.Matches (ask : Ask κ γ) (entry : InFlight κ γ) : Prop where
  protocol : entry.protocol = ask.protocol
  retriesDone : entry.retriesDone = ask.retriesDone
  waiters : entry.waiters = ask.waiters

/-- An attempt is to end with the result that is on its way, or with its alarm
where none comes in time. -/
inductive Awaits (scene : Scene) (arrivals : List Arrival)
    (entry : InFlight κ γ) (alarm : Nat) :
    Fate → Prop
  | result (arrival : Arrival) (hmem : arrival ∈ arrivals)
      (hgeneration : arrival.generation = entry.generation)
      (hsole : ∀ other ∈ arrivals, other.generation = entry.generation →
        other = arrival)
      (htime : arrival.due ≤ alarm) :
      Awaits scene arrivals entry alarm
        ⟨arrival.due, judge scene.question entry.messageId entry.protocol
          scene.settings.negativeTtl arrival.result⟩
  | alarm
      (hlate : ∀ arrival ∈ arrivals, arrival.generation = entry.generation →
        alarm < arrival.due) :
      Awaits scene arrivals entry alarm ⟨alarm, .failed .timeout⟩

structure Traces (scene : Scene) (world : World κ γ (Log κ γ))
    (entry : InFlight κ γ) (ask : Ask κ γ) :
    Prop extends ask.Matches entry where
  alarm : ∀ alarm ∈ world.engine.alarms, alarm.generation = entry.generation →
    alarm.due = ask.launched + scene.settings.timeout
  unsent : ask.fate? = none → world.begun < entry.generation ∧
    ask.launched = world.now
  sent : ∀ fate, ask.fate? = some fate → entry.generation ≤ world.begun ∧
    world.now ≤ fate.due ∧
    Awaits scene world.arrivals entry
    (ask.launched + scene.settings.timeout) fate

/-- A share is that of a world, but for the entry. -/
structure Holds (scene : Scene) (world : World κ γ (Log κ γ))
    (share : Share κ γ) : Prop where
  started : world.engine.started = share.started
  found : world.engine.cache.find? scene.question =
    share.cache.find? scene.question
  maxTtl : share.cache.maxTtl = scene.settings.maxTtl
  capacity : 0 < share.cache.capacity
  replies : ∀ earlier exchange, exchange.question = scene.question →
    world.nameServers earlier exchange =
      scene.reply (NameServers.asked scene.question earlier)
  asked : NameServers.asked scene.question world.history = share.asked
  log : Log.about scene.question world.host = share.log

structure Shows (scene : Scene) (world : World κ γ (Log κ γ))
    (share : Share κ γ) : Prop
    extends Holds scene world share where
  ask :
    Option.Rel (Traces scene world)
    (world.engine.entry? scene.question) share.ask?

variable {scene : Scene} {world next : World κ γ (Log κ γ)} {share : Share κ γ}
  {ask : Ask κ γ} {entry : InFlight κ γ} {questions : List Question}
  {exchange : Exchange} {due : Due} {limit : Nat} {fate : Fate} {reply : Reply}

theorem Awaits.congr {arrivals others : List Arrival} {alarm : Nat}
    (hawaits : Awaits scene arrivals entry alarm fate)
    (hsame : ∀ arrival, arrival.generation = entry.generation →
      (arrival ∈ others ↔ arrival ∈ arrivals)) :
    Awaits scene others entry alarm fate := by
  cases hawaits with
  | result arrival hmem hgeneration hsole htime =>
      refine .result arrival ((hsame arrival hgeneration).mpr hmem)
        hgeneration ?_ htime
      exact fun other hother hsibling =>
        hsole other ((hsame other hsibling).mp hother) hsibling
  | alarm hlate =>
      refine .alarm fun arrival harrival hgeneration => ?_
      exact hlate arrival ((hsame arrival hgeneration).mp harrival) hgeneration

theorem Traces.withWaiters (htraces : Traces scene world entry ask)
    {engine : Engine κ γ} (halarms : engine.alarms ⊆ world.engine.alarms)
    (waiters : List (Waiter κ γ)) :
    Traces scene { world with engine } { entry with waiters }
      { ask with waiters } where
  toMatches := ⟨htraces.protocol, htraces.retriesDone, rfl⟩
  alarm alarm halarm := htraces.alarm alarm (halarms halarm)
  unsent := htraces.unsent
  sent fate hfate := by
    obtain ⟨hgone, hahead, hawaits⟩ := htraces.sent fate hfate
    refine ⟨hgone, hahead, ?_⟩
    cases hawaits with
    | result arrival hmem hgeneration hsole htime =>
        exact .result arrival hmem hgeneration hsole htime
    | alarm hlate => exact .alarm hlate

theorem Traces.frame (htraces : Traces scene world entry ask)
    (hbound : entry.generation ≤ world.engine.generations)
    (hspares : Engine.Spares scene.question world.engine next.engine)
    (harrivals : ∀ arrival, arrival.generation = entry.generation →
      (arrival ∈ next.arrivals ↔ arrival ∈ world.arrivals))
    (hbegun : next.begun < entry.generation ↔ world.begun < entry.generation)
    (hunsent : world.begun < entry.generation → next.now = world.now)
    (hsent : ∀ fate, ask.fate? = some fate → next.now ≤ fate.due) :
    Traces scene next entry ask where
  toMatches := htraces.toMatches
  alarm alarm halarm hgeneration := by
    rcases hspares.alarms alarm halarm with hold | hnew
    · exact htraces.alarm alarm hold hgeneration
    · omega
  unsent hfate := by
    obtain ⟨hlate, hlaunched⟩ := htraces.unsent hfate
    exact ⟨hbegun.mpr hlate, hlaunched.trans (hunsent hlate).symm⟩
  sent fate hfate := by
    obtain ⟨hgone, -, hawaits⟩ := htraces.sent fate hfate
    refine ⟨?_, hsent fate hfate, hawaits.congr harrivals⟩
    omega

theorem Shows.change {later : Share κ γ} (hshows : Shows scene world share)
    (hholds : Holds scene next later) {onEntry : InFlight κ γ → InFlight κ γ}
    {onAsk : Ask κ γ → Ask κ γ}
    (hentry : next.engine.entry? scene.question =
      (world.engine.entry? scene.question).map onEntry)
    (hask : later.ask? = share.ask?.map onAsk)
    (htraces : ∀ entry ask, world.engine.entry? scene.question = some entry →
      Traces scene world entry ask →
      Traces scene next (onEntry entry) (onAsk ask)) :
    Shows scene next later := by
  refine ⟨hholds, ?_⟩
  have hrel := hshows.ask
  rw [hentry, hask]
  generalize hfound : world.engine.entry? scene.question = entry? at hrel ⊢
  generalize share.ask? = ask? at hrel ⊢
  cases hrel with
  | none => exact .none
  | some hold => exact .some (htraces _ _ hfound hold)

theorem Shows.frame (hshows : Shows scene world share)
    (hspares : Engine.Spares scene.question world.engine next.engine)
    (hservers : next.nameServers = world.nameServers)
    (hasked : NameServers.asked scene.question next.history =
      NameServers.asked scene.question world.history)
    (hlog : Log.about scene.question next.host =
      Log.about scene.question world.host)
    (htraces : ∀ entry ask, world.engine.entry? scene.question = some entry →
      Traces scene world entry ask → Traces scene next entry ask) :
    Shows scene next share := by
  have hholds : Holds scene next share := {
    started := hspares.started.trans hshows.started
    found := hspares.found.trans hshows.found
    maxTtl := hshows.maxTtl
    capacity := hshows.capacity
    replies := hservers ▸ hshows.replies
    asked := hasked.trans hshows.asked
    log := hlog.trans hshows.log }
  exact hshows.change hholds (hspares.entry.trans Option.map_id'.symm)
    Option.map_id'.symm htraces

theorem Shows.ask_of_entry (hshows : Shows scene world share)
    (hentry : world.engine.entry? scene.question = some entry) :
    ∃ ask, share.ask? = some ask ∧ Traces scene world entry ask := by
  have hask := hshows.ask
  rw [hentry] at hask
  generalize share.ask? = ask? at hask ⊢
  cases hask with
  | some htraces => exact ⟨_, rfl, htraces⟩

theorem Shows.ask_of_none (hshows : Shows scene world share)
    (hentry : world.engine.entry? scene.question = none) :
    share.ask? = none := by
  have hask := hshows.ask
  rw [hentry] at hask
  generalize share.ask? = ask? at hask ⊢
  cases hask
  rfl

section Others

theorem generation_ne_of_current? {engine : Engine κ γ} {question : Question}
    {generation : Nat} {owner : InFlight κ γ} (harmed : engine.Armed)
    (howner : engine.current? question generation = some owner)
    (hentry : engine.entry? scene.question = some entry)
    (hother : question ≠ scene.question) :
    entry.generation ≠ generation := by
  intro hsame
  obtain ⟨hfound, rfl⟩ := Engine.entry?_of_current? howner
  have heq :=
    harmed.eq_of_generation (Engine.entry?_mem hentry)
      (Engine.entry?_mem hfound) hsame
  rw [← Engine.entry?_question hfound, ← Engine.entry?_question hentry, heq]
    at hother
  exact hother rfl

theorem Traces.mem_dues (htraces : Traces scene world entry ask)
    (harmed : world.engine.Armed)
    (hentry : world.engine.entry? scene.question = some entry)
    (hfate : ask.fate? = some fate) :
    ∃ due ∈ world.dues, due.generation = entry.generation ∧
      due.time = fate.due := by
  obtain ⟨-, -, hawaits⟩ := htraces.sent fate hfate
  have hmem := Engine.entry?_mem hentry
  cases hawaits with
  | result arrival harrival hgeneration =>
      refine ⟨.result arrival,
        World.mem_dues.mpr (.inl ⟨arrival, harrival, ?_, rfl⟩), hgeneration,
        rfl⟩
      exact ⟨entry.exchange, harmed.exchange_mem hmem, hgeneration.symm⟩
  | alarm =>
      obtain ⟨alarm, halarm, hattempt⟩ := harmed.alarm_of_entry hmem
      have hgeneration : alarm.generation = entry.generation :=
        congrArg Prod.fst hattempt
      exact ⟨.ring alarm, World.mem_dues.mpr (.inr ⟨alarm, halarm, rfl⟩),
        hgeneration, htraces.alarm alarm halarm hgeneration⟩

theorem roomy_and_asked (hsound : world.Sound scene.settings questions) :
    world.engine.cache.Roomy questions ∧
      ∀ entry ∈ world.engine.inFlight, entry.question ∈ questions :=
  ⟨hsound.orderly.roomy, fun entry hentry =>
    (hsound.orderly.framed entry hentry).asked⟩

/-- The query of an entry that has no fate is the reason why the clock stands
still. -/
theorem unsent?_ne_none (harmed : world.engine.Armed)
    (hentry : world.engine.entry? scene.question = some entry)
    (hlate : world.begun < entry.generation) : world.unsent? ≠ none := by
  intro hnone
  have hgone := List.find?_eq_none.mp hnone entry.exchange
    (harmed.exchange_mem (Engine.entry?_mem hentry))
  simp [InFlight.exchange, hlate] at hgone

theorem Shows.meet_others (hshows : Shows scene world share)
    (hsound : world.Sound scene.settings questions)
    (hready : world.Ready limit due) (hother : due.question ≠ scene.question) :
    Shows scene (world.meet recorder due) share := by
  have harmed := hsound.orderly.armed
  obtain ⟨hroomy, hasked⟩ := roomy_and_asked hsound
  obtain ⟨owner, howner⟩ := hsound.current hready.mem
  rw [World.meet_eq, World.apply_recorder]
  refine hshows.frame ?_ rfl rfl ?_ ?_
  · exact Engine.onEnd_spares hroomy hasked hother _ due.generation due.ending
  · rw [Log.about_append, Log.about_others, List.append_nil]
    intro delivery hdelivery
    rwa [Engine.onEnd_question hdelivery]
  · intro entry ask hentry htraces
    have hgeneration := generation_ne_of_current? harmed howner hentry hother
    refine htraces.frame
      (harmed.serves.bounded entry (Engine.entry?_mem hentry)) ?_ ?_ Iff.rfl
      ?_ ?_
    · exact Engine.onEnd_spares hroomy hasked hother _ due.generation due.ending
    · intro arrival harrival
      exact ⟨Due.mem_leaves, fun hmem =>
        Due.mem_leaves_of_ne hmem (harrival ▸ hgeneration)⟩
    · intro hlate
      refine Nat.max_eq_left (Nat.le_of_not_lt fun hahead => ?_)
      exact unsent?_ne_none harmed hentry hlate (hready.patient hahead)
    · intro fate hfate
      obtain ⟨hgone, hahead, -⟩ := htraces.sent fate hfate
      obtain ⟨mine, hmine, hsame, htime⟩ := htraces.mem_dues harmed hentry hfate
      have hfirst :=
        hready.least mine hmine (Nat.le_trans (Nat.le_of_eq hsame) hgone)
      exact Nat.max_le.mpr ⟨hahead, htime ▸ hfirst⟩

theorem Shows.send_others (hshows : Shows scene world share)
    (hsound : world.Sound scene.settings questions)
    (hunsent : world.unsent? = some exchange)
    (hother : exchange.question ≠ scene.question)
    (hsends : World.Sends world exchange reply next) :
    Shows scene next share := by
  have harmed := hsound.orderly.armed
  obtain ⟨hroomy, hasked⟩ := roomy_and_asked hsound
  obtain ⟨hexchange, hlate, hfirst⟩ :=
    World.unsent?_first hsound.orderly.rising hunsent
  obtain ⟨owner, howner, rfl⟩ := harmed.entry_of_exchange hexchange
  have hcurrent := Engine.current?_of_entry? (harmed.keyed.entry?_of_mem howner)
  have hcount :
      NameServers.asked scene.question (world.history ++ [owner.exchange]) =
        NameServers.asked scene.question world.history := by
    rw [NameServers.asked_append, if_neg hother, Nat.add_zero]
  -- Only the attempt whose query goes out is marked, since the first one is
  -- taken.
  have hkeeps {next : World κ γ (Log κ γ)}
      (hspares : Engine.Spares scene.question world.engine next.engine)
      (hbegun : next.begun = owner.generation) (hnow : next.now = world.now)
      (harrivals : ∀ arrival, arrival.generation ≠ owner.generation →
        (arrival ∈ next.arrivals ↔ arrival ∈ world.arrivals))
      (entry : InFlight κ γ) (ask : Ask κ γ)
      (hentry : world.engine.entry? scene.question = some entry)
      (htraces : Traces scene world entry ask) :
      Traces scene next entry ask := by
    have hmem := Engine.entry?_mem hentry
    have hgeneration := generation_ne_of_current? harmed hcurrent hentry hother
    refine htraces.frame (harmed.serves.bounded entry hmem) hspares ?_ ?_
      (fun _ => hnow) ?_
    · exact fun arrival harrival => harrivals arrival (harrival ▸ hgeneration)
    · rw [hbegun]
      have hbehind := hfirst entry.exchange (harmed.exchange_mem hmem)
      simp only [InFlight.exchange] at hbehind hlate
      omega
    · exact fun fate hfate => hnow ▸ (htraces.sent fate hfate).2.1
  cases hsends with
  | silent =>
      exact hshows.frame (.refl _ _) rfl hcount rfl
        (hkeeps (.refl _ _) rfl rfl fun _ _ => Iff.rfl)
  | prompt result =>
      rw [World.apply_recorder]
      have hspares :=
        Engine.onEnd_spares hroomy hasked hother world.now owner.generation
        (.result result)
      refine hshows.frame hspares rfl hcount ?_
        (hkeeps hspares rfl rfl fun _ _ => Iff.rfl)
      rw [Log.about_append, Log.about_others, List.append_nil]
      · rfl
      · intro delivery hdelivery
        rwa [Engine.onEnd_question hdelivery]
  | delayed result =>
      refine hshows.frame (.refl _ _) rfl hcount rfl
        (hkeeps (.refl _ _) rfl rfl fun arrival hdifferent => ?_)
      rw [List.mem_append, List.mem_singleton]
      refine ⟨fun hmem => hmem.resolve_right fun hnew => ?_, .inl⟩
      exact hdifferent (congrArg Arrival.generation hnew)

end Others

section Own

/-- The fate of an attempt can be read from the query that the servers really
get. -/
theorem Scene.fate_eq {id : UInt16} {query : Octets}
    (hechoes : reply.Echoes scene.question)
    (hbuilt : Message.buildQuery scene.question id = .ok query)
    (ask : Ask κ γ) :
    scene.fate ask reply =
      match reply.result? query with
      | some result =>
          if reply.delay ≤ scene.settings.timeout then
            ⟨ask.launched + reply.delay,
              judge scene.question id ask.protocol
              scene.settings.negativeTtl result⟩
          else ⟨ask.launched + scene.settings.timeout, .failed .timeout⟩
      | none => ⟨ask.launched + scene.settings.timeout, .failed .timeout⟩ := by
  obtain ⟨error, herror, -⟩ | ⟨_, sibling, -, hsibling⟩ :=
    Message.buildQuery_congr scene.question id 0
  · rw [hbuilt] at herror
    cases herror
  · have hquery : scene.query = sibling := by
      rw [Scene.query, hsibling]
      rfl
    have hsaid := hechoes id 0 query sibling hbuilt hsibling
    rw [Scene.fate, hquery]
    cases hresult : reply.result? query with
    | none =>
        cases hother : reply.result? sibling with
        | none => rfl
        | some other =>
            rw [hresult, hother] at hsaid
            cases hsaid
    | some result =>
        cases hother : reply.result? sibling with
        | none =>
            rw [hresult, hother] at hsaid
            cases hsaid
        | some other =>
            rw [hresult, hother, Option.map_some, Option.map_some] at hsaid
            simp only [judge_eq_appraise, Option.some.inj hsaid]

theorem Scene.fate_of_prompt {id : UInt16} {query : Octets}
    {result : Except Error Octets} (hechoes : reply.Echoes scene.question)
    (hbuilt : Message.buildQuery scene.question id = .ok query)
    (hresult : reply.result? query = some result) (hdelay : reply.delay = 0)
    (ask : Ask κ γ) :
    scene.fate ask reply =
      ⟨ask.launched,
        judge scene.question id ask.protocol scene.settings.negativeTtl
          result⟩ := by
  simp only [Scene.fate_eq hechoes hbuilt, hresult, hdelay,
    if_pos (Nat.zero_le _), Nat.add_zero]

theorem Scene.launched_le_due (scene : Scene) (ask : Ask κ γ) (reply : Reply) :
    ask.launched ≤ (scene.fate ask reply).due := by
  unfold fate
  split
  next => split <;> exact Nat.le_add_right _ _
  next => exact Nat.le_add_right _ _

section Awaiting

variable {arrivals : List Arrival} (hechoes : reply.Echoes scene.question)
  (hbuilt : Message.buildQuery scene.question entry.messageId = .ok entry.query)
  (hnone : ∀ arrival ∈ arrivals, arrival.generation ≠ entry.generation)
include hechoes hbuilt hnone

theorem awaits_of_silence (hresult : reply.result? entry.query = none) :
    Awaits scene arrivals entry (ask.launched + scene.settings.timeout)
      (scene.fate ask reply) := by
  rw [Scene.fate_eq hechoes hbuilt, hresult]
  exact .alarm fun arrival harrival hsame =>
    absurd hsame (hnone arrival harrival)

theorem awaits_of_delay {arrival : Arrival}
    (hprotocol : entry.protocol = ask.protocol)
    (hgeneration : arrival.generation = entry.generation)
    (hdue : arrival.due = ask.launched + reply.delay)
    (hresult : reply.result? entry.query = some arrival.result) :
    Awaits scene (arrivals ++ [arrival]) entry
      (ask.launched + scene.settings.timeout)
      (scene.fate ask reply) := by
  have hsole : ∀ other ∈ arrivals ++ [arrival],
      other.generation = entry.generation → other = arrival := by
    intro other hother hsame
    rcases List.mem_append.mp hother with hold | hnew
    · exact absurd hsame (hnone other hold)
    · exact List.mem_singleton.mp hnew
  rw [Scene.fate_eq hechoes hbuilt, hresult, ← hprotocol, ← hdue]
  simp only
  split
  next hintime =>
    refine .result arrival (List.mem_append_right _ List.mem_cons_self)
      hgeneration hsole ?_
    exact hdue ▸ Nat.add_le_add_left hintime _
  next hlate =>
    refine .alarm fun other hother hsame => ?_
    rw [hsole other hother hsame, hdue]
    exact Nat.add_lt_add_left (Nat.lt_of_not_le hlate) _

end Awaiting

theorem Holds.conclude (hholds : Holds scene world share)
    (horderly : world.engine.Orderly scene.settings questions)
    (hbegun : world.begun ≤ world.engine.generations)
    (hentry : world.engine.entry? scene.question = some entry)
    (hmatches : ask.Matches entry) {ending : AttemptEnd}
    (hverdict : entry.sequel scene.settings ending =
      entry.afterVerdict scene.settings fate.verdict)
    (arrivals : List Arrival) :
    Shows scene
      ({ world with now := fate.due, arrivals }.apply recorder
        (world.engine.onEnd fate.due scene.question entry.generation ending))
      (scene.conclude share ask fate) := by
  have hquestion := Engine.entry?_question hentry
  have halike := entry.afterVerdict_alike (ask.entry scene.question) hquestion
    hmatches.retriesDone scene.settings fate.verdict
  rw [World.apply_recorder,
    Engine.onEnd_of_current (Engine.current?_of_entry? hentry),
    horderly.settings_eq, Scene.conclude]
  generalize hsequel : entry.sequel scene.settings ending = sequel at hverdict ⊢
  rw [← hverdict] at halike
  generalize (ask.entry scene.question).afterVerdict scene.settings
    fate.verdict = mine at halike ⊢
  cases halike with
  | again server other protocol retriesDone =>
      refine ⟨{ hholds with started := ?_, found := ?_, log := ?_ }, ?_⟩
      · exact (Engine.launch_started _ _ _).trans hholds.started
      · exact (congrArg (AnswerCache.find? · scene.question)
          (Engine.launch_cache _ fate.due _)).trans hholds.found
      · exact (congrArg (Log.about scene.question) (List.append_nil _)).trans
          hholds.log
      · simp only [Engine.proceed, Engine.entry?_launch, hquestion, if_pos]
        refine .some ⟨⟨rfl, rfl, hmatches.waiters⟩, ?_, fun _ => ⟨?_, rfl⟩,
          fun _ hfate => by cases hfate⟩
        · intro alarm halarm hgeneration
          rw [Engine.launch_alarm_due ?_ halarm hgeneration]
          · exact congrArg (fun settings => fate.due + settings.timeout)
              horderly.settings_eq
          · exact fun alarm halarm =>
              horderly.armed.alarm_le (List.mem_of_mem_filter halarm)
        · exact Nat.lt_succ_of_le hbegun
  | answered answer =>
      have hanswer : answer.question = scene.question :=
        (InFlight.sequel_question hsequel).trans hquestion
      have hdeliveries : Log.about scene.question
          (Log.ofDeliveries fate.due (Engine.deliveries entry.waiters answer)) =
          Log.ofDeliveries fate.due (Engine.deliveries ask.waiters answer) := by
        rw [Log.about_own, hmatches.waiters]
        intro delivery hdelivery
        obtain ⟨waiter, -, rfl⟩ := List.mem_map.mp hdelivery
        exact hanswer
      refine ⟨{ hholds with
                found := ?_, maxTtl := ?_, capacity := ?_, log := ?_ }, ?_⟩
      · rw [← hanswer]
        refine AnswerCache.find?_insert_congr (hanswer ▸ hholds.found) ?_
          horderly.roomy.pos hholds.capacity fate.due
        exact horderly.maxTtl.trans hholds.maxTtl.symm
      · exact (AnswerCache.insert_maxTtl ..).trans hholds.maxTtl
      · exact Nat.lt_of_lt_of_eq hholds.capacity
          (AnswerCache.insert_capacity ..).symm
      · exact (Log.about_append ..).trans (congrArg₂ _ hholds.log hdeliveries)
      · simp only [Engine.proceed, Engine.entry?_settle, hquestion, if_pos]
        exact .none

theorem Traces.ready (htraces : Traces scene world entry ask)
    (hsound : world.Sound scene.settings questions)
    (hready : world.Ready limit due)
    (hentry : world.engine.entry? scene.question = some entry)
    (hgeneration : entry.generation = due.generation)
    (hfate : ask.fate? = some fate) :
    due.time = fate.due ∧
      entry.sequel scene.settings due.ending =
        entry.afterVerdict scene.settings fate.verdict := by
  have harmed := hsound.orderly.armed
  have hquestion := Engine.entry?_question hentry
  obtain ⟨hgone, -, hawaits⟩ := htraces.sent fate hfate
  obtain ⟨mine, hmine, hsame, htime⟩ := htraces.mem_dues harmed hentry hfate
  have hfirst := hready.least mine hmine (hsame ▸ hgone)
  rcases World.mem_dues.mp hready.mem with
    ⟨arrival, harrival, -, rfl⟩ | ⟨alarm, halarm, rfl⟩
  · cases hawaits with
    | result awaited _ _ hsole =>
        obtain rfl := hsole arrival harrival hgeneration.symm
        refine ⟨rfl, ?_⟩
        simp only [Due.ending, InFlight.sequel, hquestion]
    | alarm hlate =>
        rw [htime] at hfirst
        exact absurd (hlate arrival harrival hgeneration.symm)
          (Nat.not_lt_of_le hfirst)
  · have halarmDue := htraces.alarm alarm halarm hgeneration.symm
    cases hawaits with
    | result awaited hmem hawaited _ hintime =>
        have hdue : .result awaited ∈ world.dues := by
          refine World.mem_dues.mpr
            (.inl ⟨awaited, hmem, ⟨entry.exchange, ?_, ?_⟩, rfl⟩)
          · exact harmed.exchange_mem (Engine.entry?_mem hentry)
          · exact hawaited.symm
        have hlate :=
          hready.alone alarm awaited rfl hdue (hawaited.trans hgeneration)
        rw [halarmDue] at hlate
        exact absurd hintime (Nat.not_le_of_lt hlate)
    | alarm => exact ⟨halarmDue, rfl⟩

theorem Shows.meet_own (hshows : Shows scene world share)
    (hsound : world.Sound scene.settings questions)
    (hready : world.Ready limit due) (hown : due.question = scene.question) :
    ∃ later, scene.step? limit share = some later ∧
      Shows scene (world.meet recorder due) later := by
  obtain ⟨entry, hcurrent⟩ := hsound.current hready.mem
  rw [hown] at hcurrent
  obtain ⟨hentry, hgeneration⟩ := Engine.entry?_of_current? hcurrent
  obtain ⟨ask, hask, htraces⟩ := hshows.ask_of_entry hentry
  cases hfate : ask.fate? with
  | none =>
      have hlate := (htraces.unsent hfate).1
      rw [hgeneration] at hlate
      exact absurd hready.sent (Nat.not_le_of_lt hlate)
  | some fate =>
      obtain ⟨htime, hverdict⟩ :=
        htraces.ready hsound hready hentry hgeneration hfate
      have hnow : max world.now due.time = fate.due := by
        rw [htime]
        exact Nat.max_eq_right (htraces.sent fate hfate).2.1
      have hlimit : fate.due ≤ limit := htime ▸ hready.time_le
      refine ⟨scene.conclude share ask fate, ?_, ?_⟩
      · simp only [Scene.step?, hask, hfate, if_pos hlimit]
      · rw [World.meet_eq, hnow, hown, ← hgeneration]
        exact hshows.toHolds.conclude hsound.orderly hsound.begun_le hentry
          htraces.toMatches hverdict _

theorem Traces.began (htraces : Traces scene world entry ask)
    {arrivals : List Arrival} (hahead : world.now ≤ fate.due)
    (hawaits : Awaits scene arrivals entry
      (ask.launched + scene.settings.timeout) fate) :
    Traces scene { world.began entry.exchange with arrivals } entry
      { ask with fate? := some fate } where
  toMatches := ⟨htraces.protocol, htraces.retriesDone, htraces.waiters⟩
  alarm := htraces.alarm
  unsent := nofun
  sent later hlater := by
    cases hlater
    exact ⟨Nat.le_refl entry.generation, hahead, hawaits⟩

theorem Holds.began (hholds : Holds scene world share)
    (hown : exchange.question = scene.question) (ask : Ask κ γ) :
    Holds scene (world.began exchange) (scene.send share ask) := by
  refine { hholds with asked := ?_ }
  rw [World.began, NameServers.asked_append, if_pos hown, hholds.asked,
    Scene.send]

theorem Holds.reply_eq (hholds : Holds scene world share)
    (hown : exchange.question = scene.question) :
    world.reply exchange = scene.reply share.asked := by
  rw [World.reply, hholds.replies _ _ hown, hholds.asked]

theorem Shows.unsent (hshows : Shows scene world share)
    (hsound : world.Sound scene.settings questions)
    (hunsent : world.unsent? = some exchange)
    (hown : exchange.question = scene.question) :
    ∃ entry ask, exchange = entry.exchange ∧ world.begun < entry.generation ∧
      world.engine.entry? scene.question = some entry ∧ share.ask? = some ask ∧
      ask.fate? = none ∧ Traces scene world entry ask := by
  have harmed := hsound.orderly.armed
  obtain ⟨hexchange, hlate, -⟩ :=
    World.unsent?_first hsound.orderly.rising hunsent
  obtain ⟨entry, hmem, rfl⟩ := harmed.entry_of_exchange hexchange
  have hquestion : entry.question = scene.question := hown
  have hentry : world.engine.entry? scene.question = some entry :=
    hquestion ▸ harmed.keyed.entry?_of_mem hmem
  obtain ⟨ask, hask, htraces⟩ := hshows.ask_of_entry hentry
  refine ⟨entry, ask, rfl, hlate, hentry, hask, ?_, htraces⟩
  cases hfate : ask.fate? with
  | none => rfl
  | some fate =>
      exact absurd (htraces.sent fate hfate).1 (Nat.not_le_of_lt hlate)

theorem Shows.send_own (hshows : Shows scene world share)
    (hsound : world.Sound scene.settings questions) (hnow : world.now ≤ limit)
    (hunsent : world.unsent? = some exchange)
    (hown : exchange.question = scene.question)
    (hreply : world.reply exchange = reply)
    (hsends : World.Sends world exchange reply next) :
    ∃ later, share.Goes scene limit later ∧ Shows scene next later := by
  obtain ⟨entry, ask, rfl, hlate, hentry, hask, hfate, htraces⟩ :=
    hshows.unsent hsound hunsent hown
  have hquestion : entry.question = scene.question := hown
  have hbuilt := (hsound.orderly.framed entry (Engine.entry?_mem hentry)).built
  rw [hquestion] at hbuilt
  have hlaunched := (htraces.unsent hfate).2
  have hstep : scene.step? limit share = some (scene.send share ask) := by
    simp only [Scene.step?, hask, hfate]
  have hholds := hshows.toHolds.began hown ask
  have htaken := (hshows.reply_eq hown).symm.trans hreply
  have hechoes : reply.Echoes scene.question :=
    htaken ▸ scene.echoes share.asked
  have hfated : (scene.send share ask).ask? =
      some { ask with fate? := some (scene.fate ask reply) } := by
    rw [Scene.send, htaken]
  have hnone : ∀ arrival ∈ world.arrivals, arrival.generation ≠
      entry.generation :=
    fun arrival harrival =>
      Nat.ne_of_lt
        (Nat.lt_of_le_of_lt (hsound.arrivals_le arrival harrival) hlate)
  -- Unless the reply is there at once, the attempt has its fate now and awaits
  -- it.
  have hwaits {arrivals : List Arrival}
      (hawaits : Awaits scene arrivals entry
        (ask.launched + scene.settings.timeout) (scene.fate ask reply)) :
      ∃ later, share.Goes scene limit later ∧
        Shows scene { world.began entry.exchange with arrivals } later := by
    refine ⟨scene.send share ask, .single hstep, { hholds with }, ?_⟩
    rw [hfated]
    change Option.Rel _ (world.engine.entry? scene.question) _
    rw [hentry]
    exact .some
      (htraces.began (hlaunched ▸ scene.launched_le_due ask reply) hawaits)
  cases hsends with
  | silent hresult =>
      exact hwaits (awaits_of_silence hechoes hbuilt hnone hresult)
  | delayed result hresult =>
      refine hwaits
        (awaits_of_delay hechoes hbuilt hnone htraces.protocol rfl ?_ hresult)
      rw [hlaunched]
  | prompt result hresult hdelay =>
      have hprompt := Scene.fate_of_prompt hechoes hbuilt hresult hdelay ask
      have hdue : (scene.fate ask reply).due = world.now :=
        by rw [hprompt, hlaunched]
      have hverdict : entry.sequel scene.settings (.result result) =
          entry.afterVerdict scene.settings (scene.fate ask reply).verdict := by
        rw [hprompt, ← htraces.protocol, InFlight.sequel, hquestion]
      let fated : Ask κ γ := { ask with fate? := some (scene.fate ask reply) }
      have hmatches : fated.Matches entry :=
        ⟨htraces.protocol, htraces.retriesDone, htraces.waiters⟩
      have hbegan := hsound.began hunsent
      have hconclude :=
        hholds.conclude hbegan.orderly hbegan.begun_le hentry hmatches hverdict
        world.arrivals
      refine ⟨scene.conclude (scene.send share ask) fated
          (scene.fate ask reply), .head hstep (.single ?_), ?_⟩
      · have hlimit : (scene.fate ask reply).due ≤ limit := hdue ▸ hnow
        simp only [Scene.step?, hfated, if_pos hlimit, fated]
      · rw [hdue, ← hquestion] at hconclude
        exact hconclude

end Own

/-- A piece of work takes the share on, or it is about another question. -/
theorem Shows.carryOut {task : Task} (hshows : Shows scene world share)
    (hsound : world.Sound scene.settings questions)
    (hnow : world.now ≤ limit) (htask : world.task? limit = some task) :
    ∃ later, share.Goes scene limit later ∧
      Shows scene (world.carryOut recorder task) later := by
  cases task with
  | meet due =>
      have hready := World.task?_meet hnow htask
      by_cases hown : due.question = scene.question
      · obtain ⟨later, hstep, hlater⟩ := hshows.meet_own hsound hready hown
        exact ⟨later, .single hstep, hlater⟩
      · exact ⟨share, .refl, hshows.meet_others hsound hready hown⟩
  | send exchange =>
      have hunsent := World.task?_send htask
      have hsends := World.send_sends world exchange
      by_cases hown : exchange.question = scene.question
      · exact hshows.send_own hsound hnow hunsent hown rfl hsends
      · exact ⟨share, .refl, hshows.send_others hsound hunsent hown hsends⟩

theorem Traces.fate_ahead (htraces : Traces scene world entry ask)
    (hsound : world.Sound scene.settings questions)
    (htask : world.task? limit = none)
    (hentry : world.engine.entry? scene.question = some entry) :
    ∃ fate, ask.fate? = some fate ∧ limit < fate.due := by
  have harmed := hsound.orderly.armed
  obtain ⟨hunsent, hnext⟩ := World.task?_none htask
  cases hfate : ask.fate? with
  | none =>
      exact absurd hunsent
        (unsent?_ne_none harmed hentry (htraces.unsent hfate).1)
  | some fate =>
      obtain ⟨due, hdue, hgeneration, htime⟩ :=
        htraces.mem_dues harmed hentry hfate
      have hgone := (htraces.sent fate hfate).1
      exact ⟨fate, rfl, htime ▸ World.nextDue?_eq_none hnext hdue
          (hgeneration ▸ hgone)⟩

theorem Shows.rests (hshows : Shows scene world share)
    (hsound : world.Sound scene.settings questions)
    (htask : world.task? limit = none) :
    scene.step? limit share = none := by
  rw [Scene.step?]
  cases hentry : world.engine.entry? scene.question with
  | none => rw [hshows.ask_of_none hentry]
  | some entry =>
      obtain ⟨ask, hask, htraces⟩ := hshows.ask_of_entry hentry
      obtain ⟨fate, hfate, hahead⟩ := htraces.fate_ahead hsound htask hentry
      simp only [hask, hfate, if_neg (Nat.not_le_of_lt hahead)]

theorem Shows.moved (hshows : Shows scene world share)
    (hsound : world.Sound scene.settings questions)
    (htask : world.task? limit = none) :
    Shows scene { world with now := limit } share := by
  refine hshows.frame (.refl _ _) rfl rfl rfl fun entry ask hentry htraces => ?_
  obtain ⟨fate, hfate, hahead⟩ := htraces.fate_ahead hsound htask hentry
  have hbound :=
    hsound.orderly.armed.serves.bounded entry (Engine.entry?_mem hentry)
  refine htraces.frame hbound (.refl _ _) (fun _ _ => Iff.rfl) Iff.rfl ?_ ?_
  · intro hlate
    exact absurd (htraces.sent fate hfate).1 (Nat.not_le_of_lt hlate)
  · intro other hother
    rw [hfate] at hother
    cases hother
    exact Nat.le_of_lt hahead

/-- Moving the clock lets the share go until it rests. -/
theorem Shows.advance [DecidableEq κ] (hshows : Shows scene world share)
    (hsound : world.Sound scene.settings questions) (ms : Nat) :
    ∃ later, share.Goes scene (world.now + ms) later ∧
      scene.step? (world.now + ms) later = none ∧
      Shows scene (world.advance recorder ms) later := by
  obtain ⟨last, hlast, hnow, htask, ⟨later, hgoes, hlater⟩, hadvance, -⟩ :=
    World.advance_invariant
      (fun world' => ∃ later, share.Goes scene (world.now + ms) later ∧
        Shows scene world' later)
      (fun before task hbefore hnow htask ⟨later, hgoes, hlater⟩ => by
        obtain ⟨further, hfurther, hshows⟩ := hlater.carryOut hbefore hnow htask
        exact ⟨further, hgoes.trans hfurther, hshows⟩)
      hsound ⟨share, .refl, hshows⟩
  rw [hadvance]
  exact ⟨later, hgoes, hlater.rests hlast htask, hlater.moved hlast htask⟩

end Simulation

end DnsForwarder
