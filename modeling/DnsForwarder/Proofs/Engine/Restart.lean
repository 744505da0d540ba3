import DnsForwarder.Proofs.Engine.Freshness
import DnsForwarder.Proofs.Engine.Renumbering

/-! What an engine that was stopped does once it is started again: the same as a
new one, but that it goes on with the round of the servers and with its
counters. What was asked, answered or sent before is never seen again. -/

namespace DnsForwarder.Engine

variable {κ γ : Type}

/-- A new engine that goes on with the round of the servers, the counters and
the draws of message ids where a former one left them. -/
def renewed (settings : Settings) (ids : Nat → UInt16) (former : Engine κ γ) :
    Engine κ γ :=
  { create settings fun generation => ids (generation + former.generations) with
    nextServer := former.nextServer
    counters := former.counters }

def failures (entry : InFlight κ γ) : List (Delivery κ γ) :=
  deliveries entry.waiters (.failure .error 0 entry.question)

/-- What a step may hand out. A stop may take the entries in any order. -/
def Step.MayDeliver (step : Step κ γ) (handed : List (Delivery κ γ)) : Prop :=
  match step.event with
  | .stop => ∃ rows : List (List (Delivery κ γ)),
      rows.Perm (step.before.inFlight.map failures) ∧ handed = rows.flatten
  | _ => handed = step.effect.deliveries

theorem perform_mayDeliver [DecidableEq κ] (engine : Engine κ γ) (now : Nat)
    (event : Event κ γ) :
    let step : Step κ γ := ⟨engine, now, event, engine.perform now event⟩
    step.MayDeliver step.effect.deliveries := by
  cases event with
  | stop =>
      exact ⟨_, .refl _, List.flatMap_def.trans rfl⟩
  | _ => exact rfl

/-- A step beside one of an engine that knows nothing of `offset` attempts
before its own. Both give, take back, send and keep the same, also where both
may hand out in more than one order. -/
structure Step.Repeats (offset : Nat) (step other : Step κ γ) : Prop where
  now : step.now = other.now
  event : other.event = step.event.since offset
  resolution? : step.effect.resolution? = other.effect.resolution?
  found? : step.effect.found? = other.effect.found?
  withdrawn : step.effect.withdrawn = other.effect.withdrawn
  deliveries : step.effect.deliveries = other.effect.deliveries
  mayDeliver : ∀ handed, step.MayDeliver handed ↔ other.MayDeliver handed
  launched : step.launched = other.launched.map (.later offset)
  cachedTtl? : ∀ now question,
    step.after.cachedTtl? now question = other.after.cachedTtl? now question
  started : step.after.started = other.after.started
  inFlight : step.after.inFlight = other.after.inFlight.map (.later offset)
  exchanges : step.after.exchanges = other.after.exchanges.map (.later offset)
  alarms : step.after.alarms = other.after.alarms.map (.later offset)
  nextServer : step.after.nextServer = other.after.nextServer
  counters : step.after.counters = other.after.counters

def Step.Admits (step : Step κ γ) (request : Request κ γ) : Prop :=
  request ∈ step.event.admitted step.effect.resolution?

/-- What a step gives or takes back came in with one of the steps before it, and
what is outstanding after it was sent behind `offset` attempts, whose ends mean
nothing any more. -/
structure Step.IsOwn (offset : Nat) (past : List (Step κ γ)) (step : Step κ γ) :
    Prop where
  delivered : ∀ delivery ∈ step.effect.deliveries,
    ∃ source ∈ past, source.Admits delivery.request
  withdrawn : ∀ waiter ∈ step.effect.withdrawn,
    ∃ source ∈ past, ∃ question, source.Admits ⟨question, waiter⟩
  served : ∀ question answer, step.Serves question answer →
    ∃ source ∈ past, source.Completes answer
  exchanges : ∀ exchange ∈ step.after.exchanges, offset < exchange.generation
  alarms : ∀ alarm ∈ step.after.alarms, offset < alarm.generation
  stale : ∀ question generation ending, step.event =
    .ended question generation ending →
    generation ≤ offset → step.effect = { engine := step.before }

section Same

variable {ids : Nat → UInt16} {offset : Nat} {engine : Engine κ γ}

theorem launchedSince_later (before after : Engine κ γ) :
    (before.later ids offset).launchedSince (after.later ids offset) =
      (before.launchedSince after).map (.later offset) := by
  have hlater (exchange : Exchange) :
      decide ((before.later ids offset).generations <
          (exchange.later offset).generation) =
        decide (before.generations < exchange.generation) :=
    decide_eq_decide.mpr lt_laterGeneration_iff
  refine List.filter_map.trans ?_
  exact congrArg (List.map (Exchange.later offset))
    (List.filter_congr fun exchange _ => hlater exchange)

theorem Event.clock_since (now : Nat) (event : Event κ γ) :
    (event.since offset).clock now = event.clock now := by
  cases event <;> rfl

variable [DecidableEq κ]

theorem step_repeats (harmed : engine.Armed)
    (hids : engine.ids = fun generation => ids (generation + offset))
    (now : Nat) (event : Event κ γ) :
    let before := engine.later ids offset
    Step.Repeats offset ⟨before, now, event, before.perform now event⟩
      ⟨engine, now, event.since offset,
      engine.perform now (event.since offset)⟩ := by
  intro before
  have hperform : before.perform now event = _ :=
    perform_later now harmed hids event
  have hrows : before.inFlight.map failures = engine.inFlight.map failures :=
    List.map_map ..
  rw [hperform]
  exact {
    now := rfl
    event := rfl
    resolution? := rfl
    found? := rfl
    withdrawn := rfl
    deliveries := rfl
    mayDeliver := fun handed => by
      cases event with
      | stop => simp only [Step.MayDeliver, Event.since, hrows]
      | _ => exact Iff.rfl
    launched := launchedSince_later engine _
    cachedTtl? := fun _ _ => rfl
    started := rfl
    inFlight := rfl
    exchanges := rfl
    alarms := rfl
    nextServer := rfl
    counters := rfl }

theorem trace_repeats (harmed : engine.Armed)
    (hids : engine.ids = fun generation => ids (generation + offset))
    (now : Nat) (events : List (Event κ γ)) :
    List.Forall₂ (Step.Repeats offset)
      ((engine.later ids offset).trace now events)
      (engine.trace now (events.map (.since offset))) := by
  induction events generalizing engine now with
  | nil => exact .nil
  | cons event events ih =>
      have hmove := perform_move engine now (event.since offset)
      refine .cons (step_repeats harmed hids now event) ?_
      rw [perform_later now harmed hids, Event.clock_since]
      exact ih (harmed.move hmove) (hmove.ids_eq.trans hids) _

end Same

/-- An engine that only holds what came in with some steps, and only attempts
behind `offset` others. -/
structure Owned (ids : Nat → UInt16) (offset : Nat) (past : List (Step κ γ))
    (engine : Engine κ γ) : Prop where
  armed : engine.Armed
  base : ∃ fresh : Engine κ γ, fresh.Armed ∧
    fresh.ids = (fun generation => ids (generation + offset)) ∧
    engine = fresh.later ids offset
  parked : ∀ request ∈ engine.parked, ∃ source ∈ past, source.Admits request
  kept : ∀ kept ∈ engine.cache.entries, ∃ source ∈ past,
    source.Completes kept.answer

namespace Owned

variable {ids : Nat → UInt16} {offset : Nat} {past : List (Step κ γ)}
  {engine : Engine κ γ}

theorem lt_generation (howned : Owned ids offset past engine) :
    ∀ entry ∈ engine.inFlight, offset < entry.generation := by
  obtain ⟨fresh, harmed, -, rfl⟩ := howned.base
  intro entry hentry
  obtain ⟨own, hown, rfl⟩ := List.mem_map.mp hentry
  have hpositive := harmed.serves.positive own hown
  have hlater : 0 + offset < laterGeneration offset own.generation :=
    lt_laterGeneration_iff.mpr hpositive
  rwa [Nat.zero_add] at hlater

theorem exchanges (howned : Owned ids offset past engine) :
    ∀ exchange ∈ engine.exchanges, offset < exchange.generation := by
  intro exchange hexchange
  obtain ⟨entry, hentry, rfl⟩ :=
    List.mem_map.mp (howned.armed.serves.exchanges.mem_iff.mp hexchange)
  exact howned.lt_generation entry hentry

theorem alarms (howned : Owned ids offset past engine) :
    ∀ alarm ∈ engine.alarms, offset < alarm.generation := by
  intro alarm halarm
  obtain ⟨entry, hentry, hattempt⟩ := List.mem_map.mp
    (howned.armed.serves.alarms.mem_iff.mp (List.mem_map_of_mem halarm))
  have hgeneration : entry.generation = alarm.generation :=
    congrArg Prod.fst hattempt
  exact hgeneration ▸ howned.lt_generation entry hentry

theorem current?_eq_none (howned : Owned ids offset past engine)
    {generation : Nat} (hbefore : generation ≤ offset) (question : Question) :
    engine.current? question generation = none := by
  rw [Option.eq_none_iff_forall_ne_some]
  intro entry hcurrent
  obtain ⟨hentry, rfl⟩ := entry?_of_current? hcurrent
  exact absurd (howned.lt_generation entry (entry?_mem hentry))
    (Nat.not_lt.mpr hbefore)

theorem served (howned : Owned ids offset past engine) [DecidableEq κ]
    {now : Nat} {event : Event κ γ} {question : Question} {answer : Answer}
    (hserves : Step.Serves ⟨engine, now, event, engine.perform now event⟩
      question answer) :
    ∃ source ∈ past, source.Completes answer := by
  have hget : (engine.cache.get now question).2 = some answer := by
    rcases hserves with ⟨rfl, hfound⟩ | ⟨caller, context, flags, back, rfl,
      hready, hserved⟩
    · obtain ⟨counters, hlookup, -⟩ := lookup_eq engine now question
      simpa only [perform, hlookup] using hfound
    · rcases resolve_ready_cases (Option.some.inj hready) with
        ⟨-, hrefusal⟩ | ⟨-, hget⟩
      · exact absurd hrefusal hserved
      · exact hget
  obtain ⟨kept, hkept, rfl, -⟩ := AnswerCache.get_mem hget
  exact howned.kept kept hkept

variable [DecidableEq κ] (howned : Owned ids offset past engine) (now : Nat)
  (event : Event κ γ)

include howned

theorem next :
    let effect := engine.perform now event
    Owned ids offset (past ++ [⟨engine, now, event, effect⟩])
    effect.engine := by
  intro effect
  have hmove := perform_move engine now event
  constructor
  · exact howned.armed.move hmove
  · obtain ⟨fresh, harmed, hids, rfl⟩ := howned.base
    have hfresh := perform_move fresh now (event.since offset)
    exact ⟨_, harmed.move hfresh, hfresh.ids_eq.trans hids,
      congrArg Effect.engine (perform_later now harmed hids event)⟩
  · intro request hrequest
    have hmem := (hmove.parked_perm howned.armed.keyed).mem_iff.mpr
      (List.mem_append_left _ (List.mem_append_left _ hrequest))
    rcases List.mem_append.mp hmem with hold | hadmitted
    · obtain ⟨source, hsource, hadmits⟩ := howned.parked request hold
      exact ⟨source, List.mem_append_left _ hsource, hadmits⟩
    · exact ⟨_, List.mem_append_right _ (List.mem_singleton_self _), hadmitted⟩
  · intro kept hkept
    rcases perform_cache hkept with
      hold | ⟨question, generation, ending, entry, rfl, hcurrent, hanswered, -⟩
    · obtain ⟨source, hsource, hcompletes⟩ := howned.kept kept hold
      exact ⟨source, List.mem_append_left _ hsource, hcompletes⟩
    · exact ⟨_, List.mem_append_right _ (List.mem_singleton_self _),
        question, generation, ending, entry, rfl, hcurrent, hanswered⟩

theorem isOwn :
    Step.IsOwn offset past ⟨engine, now, event, engine.perform now event⟩ := by
  have hmove := perform_move engine now event
  have hnext := howned.next now event
  refine ⟨?_, ?_, fun question answer hserves =>
    howned.served hserves, hnext.exchanges, hnext.alarms, ?_⟩
  · intro delivery hdelivery
    exact howned.parked _ (hmove.handed hdelivery).1
  · intro waiter hwaiter
    have hwithdrawn := hmove.withdrawn_eq ▸ hwaiter
    obtain ⟨request, hrequest, rfl⟩ := List.mem_map.mp hwithdrawn
    have hparked : request ∈ engine.parked := by
      cases event with
      | cancel caller => exact (List.mem_filter.mp hrequest).1
      | _ => cases hrequest
    obtain ⟨source, hsource, hadmits⟩ := howned.parked request hparked
    exact ⟨source, hsource, request.question, hadmits⟩
  · rintro question generation ending rfl hbefore
    simp only [perform,
      onEnd_of_stale (howned.current?_eq_none hbefore question)]

theorem trace_isOwn (events : List (Event κ γ)) :
    ∀ earlier step later, engine.trace now events = earlier ++ step :: later →
      step.IsOwn offset (past ++ earlier) := by
  -- What the engine owns after a step came in with that step or before it.
  induction events generalizing engine now past with
  | nil => simp [trace]
  | cons event events ih =>
      intro earlier step later hsteps
      cases earlier with
      | nil =>
          obtain ⟨rfl, -⟩ := List.cons.inj hsteps
          rw [List.append_nil]
          exact howned.isOwn now event
      | cons first earlier =>
          obtain ⟨rfl, hrest⟩ := List.cons.inj hsteps
          have hown := ih (howned.next now event) _ earlier step later hrest
          rwa [List.append_assoc] at hown

end Owned

structure Made (settings : Settings) (ids : Nat → UInt16)
    (engine : Engine κ γ) : Prop where
  settings_eq : engine.settings = settings
  ids_eq : engine.ids = ids
  maxTtl_eq : engine.cache.maxTtl = settings.maxTtl
  capacity_eq : engine.cache.capacity = max settings.cacheMaxEntries 1
  armed : engine.Armed

namespace Made

variable {settings : Settings} {ids : Nat → UInt16} {engine : Engine κ γ}

theorem create (settings : Settings) (ids : Nat → UInt16) :
    Made settings ids (.create settings ids : Engine κ γ) where
  settings_eq := rfl
  ids_eq := rfl
  maxTtl_eq := rfl
  capacity_eq := rfl
  armed := create_armed settings ids

theorem next [DecidableEq κ] (hmade : Made settings ids engine) (now : Nat)
    (event : Event κ γ) :
    Made settings ids (engine.perform now event).engine := by
  have hmove := perform_move engine now event
  have hlimits := perform_limits engine now event
  exact {
    settings_eq := hmove.settings_eq.trans hmade.settings_eq
    ids_eq := hmove.ids_eq.trans hmade.ids_eq
    maxTtl_eq := hlimits.1.trans hmade.maxTtl_eq
    capacity_eq := hlimits.2.trans hmade.capacity_eq
    armed := hmade.armed.move hmove }

theorem eq_renewed (hmade : Made settings ids engine)
    (hstopped : engine.started = false) (hcleared : engine.cache.entries = []) :
    engine = (renewed settings ids engine).later ids engine.generations := by
  have hentries := hmade.armed.idle hstopped
  have hserves := hmade.armed.serves
  rw [hentries] at hserves
  have hexchanges : engine.exchanges = [] := by simpa using hserves.exchanges
  have halarms : engine.alarms = [] := by simpa using hserves.alarms
  have hcache :
      engine.cache = .empty settings.cacheMaxEntries settings.maxTtl := by
    rw [AnswerCache.empty, ← hmade.capacity_eq, ← hmade.maxTtl_eq, ← hcleared]
  obtain ⟨settings', ids', started, cache, inFlight, nextServer, generations,
    counters, exchanges, alarms⟩ := engine
  obtain rfl := hmade.settings_eq
  obtain rfl := hmade.ids_eq
  simp_all [later, renewed, Engine.create]

end Made

theorem renewed_armed (settings : Settings) (ids : Nat → UInt16)
    (former : Engine κ γ) :
    (renewed settings ids former).Armed := by
  refine ⟨?_, fun _ => rfl⟩
  exact (create_armed settings ids).serves.congr rfl rfl rfl

section Runs

variable [DecidableEq κ] (settings : Settings) (ids : Nat → UInt16)
  (past : List (Event κ γ))

theorem run_made :
    let watched := Watched.run notePeriod [] settings ids past
    Made settings ids watched.engine ∧
    Sourced watched.engine watched.notes := by
  let motive (watched : Watched κ γ (List (Step κ γ))) : Prop :=
    Made settings ids watched.engine ∧ Sourced watched.engine watched.notes
  refine Watched.run_invariant motive
    ⟨.create settings ids, .create settings ids⟩ ?_ past
  rintro watched event ⟨hmade, hsourced⟩
  exact ⟨hmade.next watched.now event, hsourced.next event⟩

/-- An engine that was stopped and is started again goes on like a new one with
the same settings that takes over the round of the servers and the counters: the
same things happen to it with the same outcomes, the same answers are handed
out, the same is asked of the servers, and the same is kept. All that it hands
out or gives back came in since, and what is outstanding was sent since; the end
of a former attempt changes nothing. -/
theorem restart_is_a_fresh_start (events : List (Event κ γ)) :
    let watched := Watched.run notePeriod [] settings ids past
    let steps := watched.engine.trace watched.now (.start :: events)
    watched.engine.started = false →
      List.Forall₂ (Step.Repeats watched.engine.generations) steps
          ((renewed settings ids watched.engine).trace watched.now
            ((.start :: events).map (.since watched.engine.generations))) ∧
        ∀ earlier step later, steps = earlier ++ step :: later →
          step.IsOwn watched.engine.generations earlier := by
  intro watched steps hstopped
  obtain ⟨hmade, hsourced⟩ :
      Made settings ids watched.engine ∧ Sourced watched.engine watched.notes :=
    run_made settings ids past
  have hcleared := hsourced.idle hstopped
  have harmed := renewed_armed settings ids watched.engine
  have hrenewed := hmade.eq_renewed hstopped hcleared
  constructor
  · have hrepeats := trace_repeats harmed rfl watched.now (.start :: events)
    rwa [← hrenewed] at hrepeats
  · have howned : Owned ids watched.engine.generations [] watched.engine :=
      { armed := hmade.armed
        base := ⟨_, harmed, rfl, hrenewed⟩
        parked := by simp [parked, hmade.armed.idle hstopped]
        kept := by simp [hcleared] }
    exact howned.trace_isOwn watched.now (.start :: events)

/-- An address is kept, and it is asked for once more when the engine stops. -/
def interruptedEvents : List (Event Unit Unit) :=
  [ .start
  , .resolve addressQuestion () () {}
  , .ended addressQuestion 1 (.result (.ok (addressResponse 60 1)))
  , .resolve addressQuestion () () { bypassCache := true }
  , .stop ]

/-- The attempt from before the stop ends, and the address is asked for anew. -/
def resumedEvents : List (Event Unit Unit) :=
  [ .ended addressQuestion 2 (.result (.ok (addressResponse 60 2)))
  , .lookup addressQuestion
  , .resolve addressQuestion () () {}
  , .ended addressQuestion 3 (.result (.ok (addressResponse 60 3))) ]

theorem interrupted_attempt_brings_nothing :
    let settings := Settings.withServer (.v4 ⟨192, 0, 2, 1⟩ 53)
    let watched :=
      Watched.run notePeriod [] settings (fun _ => 0) interruptedEvents
    let steps := watched.engine.trace watched.now (.start :: resumedEvents)
    (steps.map fun step => step.effect.deliveries.map Delivery.answer) =
        [[], [], [], [], [addressAnswer 60 3]] ∧
      watched.engine.started = false ∧
      List.Forall₂ (Step.Repeats watched.engine.generations) steps
          ((renewed settings (fun _ => 0) watched.engine).trace watched.now
            ((.start :: resumedEvents).map
              (.since watched.engine.generations))) ∧
        ∀ earlier step later, steps = earlier ++ step :: later →
          step.IsOwn watched.engine.generations earlier := by
  intro settings watched steps
  have hstopped : watched.engine.started = false := by decide +kernel
  refine ⟨by decide +kernel, hstopped, ?_⟩
  exact restart_is_a_fresh_start settings (fun _ => 0) interruptedEvents
    resumedEvents hstopped

end Runs

end DnsForwarder.Engine
