import DnsForwarder.Proofs.Engine.Caching
import DnsForwarder.Proofs.Engine.Cancellation

/-! The numbers of attempts tell them apart and mean nothing else. An engine
whose attempts all have later numbers does the same, with message ids that are
drawn as much later. -/

namespace DnsForwarder

/-- The number of an attempt that comes behind `offset` others. Zero is the
number of no attempt and stays. -/
def laterGeneration (offset generation : Nat) : Nat :=
  if generation = 0 then 0 else generation + offset

theorem laterGeneration_succ (offset generation : Nat) :
    laterGeneration offset (generation + 1) = generation + offset + 1 := by
  simp only [laterGeneration, Nat.succ_ne_zero, if_false]
  omega

theorem laterGeneration_inj {offset first second : Nat} :
    laterGeneration offset first = laterGeneration offset second ↔
      first = second := by
  simp only [laterGeneration]
  split <;> split <;> omega

theorem lt_laterGeneration_iff {offset count generation : Nat} :
    count + offset < laterGeneration offset generation ↔
      count < generation := by
  simp only [laterGeneration]
  split <;> omega

theorem laterGeneration_eq_iff {offset first second : Nat}
    (hfirst : 0 < first) :
    laterGeneration offset first = second ↔ first = second - offset := by
  simp only [laterGeneration]
  split <;> omega

section Parts

variable {κ γ : Type}

def InFlight.later (offset : Nat) (entry : InFlight κ γ) : InFlight κ γ :=
  { entry with generation := laterGeneration offset entry.generation }

def Exchange.later (offset : Nat) (exchange : Exchange) : Exchange :=
  { exchange with generation := laterGeneration offset exchange.generation }

def Alarm.later (offset : Nat) (alarm : Alarm) : Alarm :=
  { alarm with generation := laterGeneration offset alarm.generation }

end Parts

namespace Engine

variable {κ γ : Type}

def later (ids : Nat → UInt16) (offset : Nat) (engine : Engine κ γ) :
    Engine κ γ :=
  { engine with
    ids
    inFlight := engine.inFlight.map (.later offset)
    generations := engine.generations + offset
    exchanges := engine.exchanges.map (.later offset)
    alarms := engine.alarms.map (.later offset) }

def Effect.later (ids : Nat → UInt16) (offset : Nat) (effect : Effect κ γ) :
    Effect κ γ :=
  { effect with engine := effect.engine.later ids offset }

/-- What an event is to an engine that knows nothing of `offset` attempts before
its own: their ends are the ends of no attempt. -/
def Event.since (offset : Nat) : Event κ γ → Event κ γ
  | .ended question generation ending =>
      .ended question (generation - offset) ending
  | event => event

variable (ids : Nat → UInt16) (offset : Nat) (engine : Engine κ γ)
  (entry : InFlight κ γ) (question : Question) (now : Nat)

theorem entry?_later :
    Engine.entry? (engine.later ids offset) question =
      (engine.entry? question).map (.later offset) := by
  rw [Engine.entry?, later, List.find?_map]
  rfl

theorem retire_later (generation : Nat) :
    (engine.later ids offset).retire (laterGeneration offset generation) =
      (engine.retire generation).later ids offset := by
  have hkeep (other : Nat) :
      (laterGeneration offset other != laterGeneration offset generation) =
        (other != generation) := by
    rw [Bool.eq_iff_iff, bne_iff_ne, bne_iff_ne, Ne, Ne, laterGeneration_inj]
  simp only [retire, later, List.filter_map, Function.comp_def, Exchange.later,
    Alarm.later, hkeep]

theorem putEntry_later :
    (engine.later ids offset).putEntry (entry.later offset) =
      (engine.putEntry entry).later ids offset := by
  have hfound :
      Engine.entry? (engine.later ids offset) (entry.later offset).question =
      (engine.entry? entry.question).map (.later offset) :=
    entry?_later ids offset engine entry.question
  cases hentry : engine.entry? entry.question with
  | none =>
      rw [putEntry, if_neg (by simp [hfound, hentry]), putEntry,
        if_neg (by simp [hentry])]
      simp [later]
  | some old =>
      have hmap : (engine.inFlight.map (.later offset)).map (fun old =>
          if old.question == (entry.later offset).question then
            entry.later offset
          else old) =
          (engine.inFlight.map fun old =>
            if old.question == entry.question then entry else old).map
              (.later offset) := by
        rw [List.map_map, List.map_map]
        apply List.map_congr_left
        intro other hother
        by_cases hsame : other.question = entry.question <;>
          simp [InFlight.later, hsame]
      rw [putEntry, if_pos (by simp [hfound, hentry]), putEntry,
        if_pos (by simp [hentry])]
      simp only [later, hmap]

theorem launch_later :
    (engine.later ids offset).launch now (entry.later offset) =
      (engine.launch now entry).later ids offset := by
  have hretire :
      (engine.later ids offset).retire (entry.later offset).generation =
      (engine.retire entry.generation).later ids offset :=
    retire_later ids offset engine entry.generation
  have hentry :
      { entry.later offset with
        generation := engine.generations + offset + 1 } =
      InFlight.later offset
      { entry with generation := engine.generations + 1 } := by
    simp only [InFlight.later, laterGeneration_succ]
  have hput : ((engine.retire entry.generation).later ids offset).putEntry
      { entry.later offset with
        generation :=
          ((engine.retire entry.generation).later ids offset).generations +
            1 } =
      ((engine.retire entry.generation).putEntry
        { entry with generation := engine.generations + 1 }).later ids offset :=
    (congrArg _ hentry).trans (putEntry_later ids offset _ _)
  simp only [launch, hretire, hput]
  simp only [later, retire_generations, putEntry_exchanges, putEntry_alarms,
    List.map_append,
    List.map_cons, List.map_nil, Exchange.later, Alarm.later,
    laterGeneration_succ,
    Nat.add_right_comm]
  rfl

theorem dropEntry_later :
    (engine.later ids offset).dropEntry question =
      (engine.dropEntry question).later ids offset := by
  simp [dropEntry, later, List.filter_map, Function.comp_def, InFlight.later]

theorem afterEnd_later (generation : Nat) (ending : AttemptEnd) :
    (engine.later ids offset).afterEnd
      (laterGeneration offset generation) ending =
      (engine.afterEnd generation ending).later ids offset := by
  rw [afterEnd, retire_later]
  cases ending <;> rfl

theorem proceed_later (sequel : Sequel) :
    (engine.later ids offset).proceed now (entry.later offset) sequel =
      ((engine.proceed now entry sequel).1.later ids offset,
        (engine.proceed now entry sequel).2) := by
  cases sequel with
  | again server protocol retriesDone =>
      exact congrArg (·, [])
        (launch_later ids offset engine
          { entry with server, protocol, retriesDone } now)
  | answered answer =>
      have hretire :
          (engine.later ids offset).retire (entry.later offset).generation =
          (engine.retire entry.generation).later ids offset :=
        retire_later ids offset engine entry.generation
      have hdrop : ((engine.retire entry.generation).later ids offset).dropEntry
          (entry.later offset).question =
          ((engine.retire entry.generation).dropEntry entry.question).later
          ids offset :=
        dropEntry_later ids offset _ entry.question
      simp only [proceed, settle, hretire, hdrop]
      rfl

theorem lookup_later :
    (engine.later ids offset).lookup now question =
      ((engine.lookup now question).1.later ids offset,
        (engine.lookup now question).2) := by
  have hget : (engine.later ids offset).cache.get now question =
      engine.cache.get now question :=
    rfl
  simp only [lookup, hget]
  cases (engine.cache.get now question).2 <;> rfl

theorem join_later (waiter : Waiter κ γ) :
    (engine.later ids offset).join (entry.later offset) waiter =
      (engine.join entry waiter).later ids offset := by
  have hput := putEntry_later ids offset engine
    { entry with waiters := entry.waiters ++ [waiter] }
  have hentry :
      { entry.later offset with
        waiters := (entry.later offset).waiters ++ [waiter] } =
      InFlight.later offset
      { entry with waiters := entry.waiters ++ [waiter] } := rfl
  rw [join, hentry, hput]
  rfl

theorem stop_later :
    (engine.later ids offset).stop =
      (engine.stop.1.later ids offset, engine.stop.2) := by
  simp only [stop, later, List.flatMap_map]
  rfl

theorem cancel_later [DecidableEq κ] (caller : κ) :
    (engine.later ids offset).cancel caller =
      ((engine.cancel caller).1.later ids offset,
        (engine.cancel caller).2) := by
  simp only [cancel, later, List.map_map, List.flatMap_map, Function.comp_def,
    InFlight.later]

variable {ids offset engine}

theorem current?_later (harmed : engine.Armed) (generation : Nat) :
    (engine.later ids offset).current? question generation =
      (engine.current? question (generation - offset)).map (.later offset) := by
  rw [current?, entry?_later, current?]
  cases hentry : engine.entry? question with
  | none => rfl
  | some entry =>
      have hiff : laterGeneration offset entry.generation = generation ↔
          entry.generation = generation - offset :=
        laterGeneration_eq_iff
          (harmed.serves.positive entry (entry?_mem hentry))
      have hsame : ((entry.later offset).generation == generation) =
          (entry.generation == generation - offset) := by
        rw [Bool.eq_iff_iff, beq_iff_eq, beq_iff_eq]
        exact hiff
      simp only [Option.map_some, Option.filter_some, hsame]
      split <;> rfl

theorem onEnd_later (harmed : engine.Armed) (generation : Nat)
    (ending : AttemptEnd) :
    (engine.later ids offset).onEnd now question generation ending =
      ((engine.onEnd now question (generation - offset) ending).1.later ids
        offset,
        (engine.onEnd now question (generation - offset) ending).2) := by
  have hcurrent : (engine.later ids offset).current? question generation = _ :=
    current?_later question harmed generation
  cases hentry : engine.current? question (generation - offset) with
  | none =>
      rw [hentry] at hcurrent
      rw [onEnd_of_stale hcurrent, onEnd_of_stale hentry]
  | some entry =>
      rw [hentry] at hcurrent
      obtain ⟨-, hnumber⟩ := entry?_of_current? hentry
      have hlater : laterGeneration offset entry.generation = generation :=
        (entry?_of_current? hcurrent).2
      have hafter := afterEnd_later ids offset engine entry.generation ending
      rw [hlater, hnumber] at hafter
      rw [onEnd_of_current hcurrent, onEnd_of_current hentry, hafter]
      exact proceed_later ids offset _ entry now _

theorem nextId_later
    (hids : engine.ids = fun generation => ids (generation + offset)) :
    (engine.later ids offset).ids ((engine.later ids offset).generations + 1) =
      engine.ids (engine.generations + 1) := by
  rw [hids]
  exact congrArg ids (Nat.add_right_comm _ _ _)

theorem openEntry_later
    (hids : engine.ids = fun generation => ids (generation + offset))
    (query : Octets) (waiter : Waiter κ γ) :
    (engine.later ids offset).openEntry now question query waiter =
      (engine.openEntry now question query waiter).later ids offset := by
  have hentry : (engine.later ids offset).newEntry question query waiter =
      (engine.newEntry question query waiter).later offset := by
    simp only [newEntry, nextId_later hids]
    rfl
  rw [openEntry_eq, hentry, openEntry_eq]
  exact launch_later ids offset engine.turned
    (engine.newEntry question query waiter) now

theorem resolveUncached_later
    (hids : engine.ids = fun generation => ids (generation + offset))
    (waiter : Waiter κ γ) (flags : Flags) :
    (engine.later ids offset).resolveUncached now question waiter flags =
      ((engine.resolveUncached now question waiter flags).1.later ids offset,
        (engine.resolveUncached now question waiter flags).2) := by
  have hfound := entry?_later ids offset engine question
  by_cases hcacheOnly : flags.cacheOnly
  · simp only [resolveUncached, hcacheOnly, if_true]
  · simp only [resolveUncached, hcacheOnly, Bool.false_eq_true,
      if_false, hfound]
    cases hentry : engine.entry? question with
    | some entry => simp only [Option.map_some, join_later]
    | none =>
        simp only [Option.map_none, nextId_later hids]
        cases Message.buildQuery question
          (engine.ids (engine.generations + 1)) with
        | error error => rfl
        | ok query => simp only [openEntry_later question now hids]

theorem resolve_later
    (hids : engine.ids = fun generation => ids (generation + offset))
    (caller : κ) (context : γ) (flags : Flags) :
    (engine.later ids offset).resolve now question caller context flags =
      ((engine.resolve now question caller context flags).1.later ids offset,
        (engine.resolve now question caller context flags).2) := by
  have hstarted : (engine.later ids offset).started = engine.started := rfl
  simp only [resolve, hstarted]
  cases engine.started with
  | false => rfl
  | true =>
      cases flags.bypassCache with
      | true => exact resolveUncached_later question now hids _ flags
      | false =>
          simp only [lookup_later, Bool.not_true, Bool.false_eq_true, if_false]
          obtain ⟨counters, hlookup, -⟩ := engine.lookup_eq now question
          rw [hlookup]
          cases (engine.cache.get now question).2 with
          | some answer => rfl
          | none =>
              exact resolveUncached_later question now (by exact hids) _ flags

variable [DecidableEq κ]

/-- An engine does the same after other attempts, and what ends of these changes
nothing. -/
theorem perform_later (harmed : engine.Armed)
    (hids : engine.ids = fun generation => ids (generation + offset))
    (event : Event κ γ) :
    (engine.later ids offset).perform now event =
      (engine.perform now (event.since offset)).later ids offset := by
  cases event with
  | wait ms => rfl
  | start =>
      by_cases hservers : engine.settings.servers = []
      · have hservers' : (engine.later ids offset).settings.servers = [] :=
          hservers
        simp only [perform, Event.since, start, hservers, hservers', if_true]
        rfl
      · have hservers' : (engine.later ids offset).settings.servers ≠ [] :=
          hservers
        simp only [perform, Event.since, start, hservers, hservers', if_false]
        rfl
  | resolve question caller context flags =>
      simp only [perform, Event.since, resolve_later question now hids]
      rfl
  | lookup question =>
      simp only [perform, Event.since, lookup_later]
      rfl
  | cancel caller =>
      simp only [perform, Event.since, cancel_later]
      rfl
  | ended question generation ending =>
      simp only [perform, Event.since, onEnd_later question now harmed]
      rfl
  | stop =>
      simp only [perform, Event.since, stop_later]
      rfl

end Engine

end DnsForwarder
