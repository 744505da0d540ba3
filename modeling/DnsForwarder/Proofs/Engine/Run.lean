import DnsForwarder.Proofs.Engine.Entries
import DnsForwarder.Proofs.Engine.Treatment

/-! Runs of an engine: what can happen to it, what each of these things does to
its entries, and rows of them. Results and alarms may name any attempt, also one
that is over. -/

namespace DnsForwarder

/-- How an attempt ended: its exchange brought something, or its alarm rang
first. -/
inductive AttemptEnd where
  | result (result : Except Error Octets)
  | alarm

inductive Sequel where
  | again (server : Nat) (protocol : Protocol) (retriesDone : Nat)
  | answered (answer : Answer)

namespace InFlight

variable {κ γ : Type}

def afterFailure (entry : InFlight κ γ) (settings : Settings)
    (failure : AttemptFailure) : Sequel :=
  if entry.retriesDone < settings.retries then
    .again (Engine.following settings entry.server)
      (Engine.initialProtocol settings) (entry.retriesDone + 1)
  else .answered (failure.answer entry.question)

def afterVerdict (entry : InFlight κ γ) (settings : Settings) : Verdict → Sequel
  | .settled answer => .answered answer
  | .truncated => .again entry.server .tcp entry.retriesDone
  | .failed failure => entry.afterFailure settings failure

def sequel (entry : InFlight κ γ) (settings : Settings) : AttemptEnd → Sequel
  | .alarm => entry.afterFailure settings .timeout
  | .result result =>
      entry.afterVerdict settings
        (judge entry.question entry.messageId entry.protocol
          settings.negativeTtl result)

end InFlight

namespace Engine

variable {κ γ : Type}

inductive Event (κ γ : Type) where
  | wait (ms : Nat)
  | start
  | resolve (question : Question) (caller : κ) (context : γ) (flags : Flags)
  | lookup (question : Question)
  | cancel (caller : κ)
  | ended (question : Question) (generation : Nat) (ending : AttemptEnd)
  | stop

structure Effect (κ γ : Type) where
  engine : Engine κ γ
  resolution? : Option (Except Error (Resolution γ)) := none
  found? : Option Answer := none
  withdrawn : List (Waiter κ γ) := []
  deliveries : List (Delivery κ γ) := []

def Event.clock (now : Nat) : Event κ γ → Nat
  | .wait ms => now + ms
  | _ => now

/-- An event takes nothing back and is not the end of a current attempt. -/
def Event.Spares (engine : Engine κ γ) : Event κ γ → Prop
  | .ended question generation _ => engine.current? question generation = none
  | .cancel _ | .stop => False
  | _ => True

def onEnd (engine : Engine κ γ) (now : Nat) (question : Question)
    (generation : Nat) :
    AttemptEnd → Engine κ γ × List (Delivery κ γ)
  | .result result => engine.onResult now question generation result
  | .alarm => engine.onAlarm now question generation

def perform [DecidableEq κ] (engine : Engine κ γ) (now : Nat) :
    Event κ γ → Effect κ γ
  | .wait _ => { engine }
  | .start =>
      match engine.start with
      | .ok engine => { engine }
      | .error _ => { engine }
  | .resolve question caller context flags =>
      let (engine, resolution) :=
        engine.resolve now question caller context flags
      { engine, resolution? := some resolution }
  | .lookup question =>
      let (engine, found?) := engine.lookup now question
      { engine, found? }
  | .cancel caller =>
      let (engine, withdrawn) := engine.cancel caller
      { engine, withdrawn }
  | .ended question generation ending =>
      let (engine, deliveries) := engine.onEnd now question generation ending
      { engine, deliveries }
  | .stop =>
      let (engine, deliveries) := engine.stop
      { engine, deliveries }

def newEntry (engine : Engine κ γ) (question : Question) (query : Octets)
    (waiter : Waiter κ γ) :
    InFlight κ γ where
  question := question
  query := query
  messageId := engine.ids (engine.generations + 1)
  server := engine.nextServer % engine.settings.servers.length
  protocol := initialProtocol engine.settings
  retriesDone := 0
  generation := 0
  waiters := [waiter]

def turned (engine : Engine κ γ) : Engine κ γ :=
  { engine with
    nextServer :=
      following engine.settings
        (engine.nextServer % engine.settings.servers.length) }

theorem openEntry_eq (engine : Engine κ γ) (now : Nat) (question : Question)
    (query : Octets) (waiter : Waiter κ γ) :
    engine.openEntry now question query waiter =
      engine.turned.launch now (engine.newEntry question query waiter) := rfl

def proceed (engine : Engine κ γ) (now : Nat) (entry : InFlight κ γ) :
    Sequel → Engine κ γ × List (Delivery κ γ)
  | .again server protocol retriesDone =>
      (engine.launch now { entry with server, protocol, retriesDone }, [])
  | .answered answer => engine.settle now entry answer

theorem proceed_settings (engine : Engine κ γ) (now : Nat)
    (entry : InFlight κ γ) (sequel : Sequel) :
    (engine.proceed now entry sequel).1.settings = engine.settings := by
  cases sequel <;> simp [proceed]

theorem proceed_ids (engine : Engine κ γ) (now : Nat) (entry : InFlight κ γ)
    (sequel : Sequel) :
    (engine.proceed now entry sequel).1.ids = engine.ids := by
  cases sequel <;> simp [proceed]

theorem attemptFailed_eq (engine : Engine κ γ) (now : Nat)
    (entry : InFlight κ γ) (failure : AttemptFailure) :
    engine.attemptFailed now entry failure =
      engine.proceed now entry
        (entry.afterFailure engine.settings failure) := by
  simp only [attemptFailed, InFlight.afterFailure]
  split <;> rfl

theorem entry?_of_current? {engine : Engine κ γ} {question : Question}
    {generation : Nat} {entry : InFlight κ γ}
    (hcurrent : engine.current? question generation = some entry) :
    engine.entry? question = some entry ∧ entry.generation = generation := by
  simpa [current?, Option.filter_eq_some_iff] using hcurrent

def countersAfter (engine : Engine κ γ) : AttemptEnd → Counters
  | .result _ => engine.counters
  | .alarm => { engine.counters with timeouts := engine.counters.timeouts + 1 }

/-- The engine once an attempt has ended, before anything follows from it. -/
def afterEnd (engine : Engine κ γ) (generation : Nat) (ending : AttemptEnd) :
    Engine κ γ :=
  { engine.retire generation with counters := engine.countersAfter ending }

@[simp] theorem afterEnd_started (engine : Engine κ γ) (generation : Nat)
    (ending : AttemptEnd) :
    (engine.afterEnd generation ending).started = engine.started := rfl

theorem onEnd_of_current {engine : Engine κ γ} {question : Question}
    {generation : Nat} {entry : InFlight κ γ}
    (hcurrent : engine.current? question generation = some entry) (now : Nat)
    (ending : AttemptEnd) :
    engine.onEnd now question generation ending =
      (engine.afterEnd generation ending).proceed now entry
        (entry.sequel engine.settings ending) := by
  have hquestion := entry?_question (entry?_of_current? hcurrent).1
  cases ending with
  | alarm =>
      simp only [onEnd, onAlarm, hcurrent, attemptFailed_eq]
      rfl
  | result result =>
      subst hquestion
      simp only [onEnd, onResult, hcurrent, InFlight.sequel, attemptFailed_eq,
        retire_settings]
      cases judge entry.question entry.messageId entry.protocol
        engine.settings.negativeTtl result <;> rfl

theorem onEnd_of_stale {engine : Engine κ γ} {question : Question}
    {generation : Nat} (hstale : engine.current? question generation = none)
    (now : Nat) (ending : AttemptEnd) :
    engine.onEnd now question generation ending = (engine, []) := by
  cases ending <;> simp [onEnd, onResult, onAlarm, hstale]

theorem lookup_eq (engine : Engine κ γ) (now : Nat) (question : Question) :
    ∃ counters,
      engine.lookup now question =
        ({ engine with cache := (engine.cache.get now question).1, counters },
          (engine.cache.get now question).2) ∧
      ((engine.cache.get now question).2 = none →
        counters = engine.counters) := by
  cases hfound : (engine.cache.get now question).2 with
  | none => exact ⟨engine.counters, by simp [lookup, hfound], fun _ => rfl⟩
  | some answer =>
      exact ⟨engine.countHit.counters, by simp [lookup, hfound, countHit],
        fun hnone => absurd hnone (Option.some_ne_none answer)⟩

section Moves

variable [DecidableEq κ]

/-- Everything that an event can do to the entries of an engine. -/
inductive Move (engine : Engine κ γ) (now : Nat) : Event κ γ → Effect κ γ → Prop
  /-- No entry and no attempt changes. -/
  | aside (event : Event κ γ) (started : Bool) (cache : AnswerCache)
    (counters : Counters)
      (resolution? : Option (Except Error (Resolution γ)))
      (found? : Option Answer)
      (hstarted : started = engine.started ∨ started = true ∧
        engine.settings.servers ≠ [])
      (hresolution : resolution? ≠ some (.ok .pending))
      (hspares : event.Spares engine) :
      Move engine now event
        { engine :=
            { engine with started, cache, counters }, resolution?, found? }
  | joined (question : Question) (caller : κ) (context : γ) (flags : Flags)
    (cache : AnswerCache)
      (entry : InFlight κ γ) (hstarted : engine.started = true)
      (hentry : engine.entry? question = some entry) :
      Move engine now (.resolve question caller context flags)
        { engine := { engine with cache }.join entry ⟨caller, context⟩
          resolution? := some (.ok .pending) }
  | opened (question : Question) (caller : κ) (context : γ) (flags : Flags)
    (cache : AnswerCache) (query : Octets) (hstarted : engine.started = true)
      (hentry : engine.entry? question = none)
      (hquery :
        Message.buildQuery question (engine.ids (engine.generations + 1)) =
          .ok query) :
      Move engine now (.resolve question caller context flags)
        { engine :=
            { engine with cache }.openEntry now question query ⟨caller, context⟩
          resolution? := some (.ok .pending) }
  | cancelled (caller : κ) :
      Move engine now (.cancel caller)
        { engine := (engine.cancel caller).1,
          withdrawn := (engine.cancel caller).2 }
  /-- The current attempt of an entry ended. -/
  | proceeded (question : Question) (generation : Nat) (ending : AttemptEnd)
      (entry : InFlight κ γ) (hcurrent : engine.current? question generation =
        some entry) :
      Move engine now (.ended question generation ending)
        (let outcome :=
          (engine.afterEnd generation ending).proceed now entry
            (entry.sequel engine.settings ending)
        { engine := outcome.1, deliveries := outcome.2 })
  | stopped :
      Move engine now .stop
        { engine := engine.stop.1, deliveries := engine.stop.2 }

variable (engine : Engine κ γ) (now : Nat)

variable {engine now} in
theorem Treatment.move {question : Question} {caller : κ} {context : γ}
    {flags : Flags} {after : Engine κ γ}
    {resolution : Except Error (Resolution γ)}
    (htreatment : engine.Treatment now question caller context flags after
      resolution) :
    Move engine now (.resolve question caller context flags)
      { engine := after, resolution? := some resolution } := by
  cases htreatment with
  | joined entry hstarted hmisses hasks hentry =>
      exact .joined _ _ _ _ _ entry hstarted hentry
  | opened query hstarted hmisses hasks hentry hquery =>
      exact .opened _ _ _ _ _ query hstarted hentry hquery
  | _ => exact .aside _ engine.started _ _ _ none (.inl rfl) nofun trivial

theorem resolve_move (question : Question) (caller : κ) (context : γ)
    (flags : Flags) :
    Move engine now (.resolve question caller context flags)
      (engine.perform now (.resolve question caller context flags)) :=
  (engine.resolve_treatment now question caller context flags).move

/-- Every event is one of the moves. -/
theorem perform_move (event : Event κ γ) :
    engine.Move now event (engine.perform now event) := by
  have unchanged (event : Event κ γ) (hspares : event.Spares engine) :
      engine.Move now event { engine } :=
    .aside event engine.started engine.cache engine.counters
      none none (.inl rfl) nofun hspares
  cases event with
  | wait ms => exact unchanged _ trivial
  | start =>
      by_cases hservers : engine.settings.servers = []
      · simpa [perform, start, hservers] using unchanged .start trivial
      · simpa [perform, start, hservers] using
          Move.aside .start true engine.cache engine.counters
          none none (.inr ⟨rfl, hservers⟩)
            nofun trivial
  | resolve question caller context flags =>
      exact resolve_move engine now question caller context flags
  | lookup question =>
      obtain ⟨counters, hlookup, -⟩ := engine.lookup_eq now question
      simpa [perform, hlookup] using
        Move.aside (.lookup question) engine.started
        (engine.cache.get now question).1 counters
          none (engine.cache.get now question).2 (.inl rfl) nofun trivial
  | cancel caller => exact .cancelled caller
  | ended question generation ending =>
      cases hcurrent : engine.current? question generation with
      | none =>
          simpa [perform, onEnd_of_stale hcurrent] using
            unchanged (.ended question generation ending) hcurrent
      | some entry =>
          simpa [perform, onEnd_of_current hcurrent] using
            Move.proceeded question generation ending entry hcurrent
  | stop => exact .stopped

variable {engine now} {event : Event κ γ} {effect : Effect κ γ}

theorem Move.settings_eq (hmove : engine.Move now event effect) :
    effect.engine.settings = engine.settings := by
  cases hmove with
  | proceeded => exact proceed_settings _ _ _ _
  | _ => simp [join, openEntry_eq, turned, cancel, stop]

theorem Move.ids_eq (hmove : engine.Move now event effect) :
    effect.engine.ids = engine.ids := by
  cases hmove with
  | proceeded => exact proceed_ids _ _ _ _
  | _ => simp [join, openEntry_eq, turned, cancel, stop]

end Moves

structure Step (κ γ : Type) where
  before : Engine κ γ
  now : Nat
  event : Event κ γ
  effect : Effect κ γ

def Step.after (step : Step κ γ) : Engine κ γ :=
  step.effect.engine

/-- The exchanges of an engine that a former state of it had not made yet. -/
def launchedSince (before after : Engine κ γ) : List Exchange :=
  after.exchanges.filter fun exchange => before.generations <
    exchange.generation

def Step.launched (step : Step κ γ) : List Exchange :=
  step.before.launchedSince step.after

/-- An engine at some time, with what an observer has noted of its past. -/
structure Watched (κ γ σ : Type) where
  engine : Engine κ γ
  now : Nat
  notes : σ

namespace Watched

variable {σ : Type} [DecidableEq κ]

def step (watched : Watched κ γ σ) (event : Event κ γ) : Step κ γ :=
  ⟨watched.engine, watched.now, event, watched.engine.perform watched.now event⟩

def next (watch : σ → Step κ γ → σ) (watched : Watched κ γ σ)
    (event : Event κ γ) :
    Watched κ γ σ :=
  ⟨(watched.step event).after, event.clock watched.now,
    watch watched.notes (watched.step event)⟩

def run (watch : σ → Step κ γ → σ) (notes : σ) (settings : Settings)
    (ids : Nat → UInt16) (events : List (Event κ γ)) : Watched κ γ σ :=
  events.foldl (next watch) ⟨.create settings ids, 0, notes⟩

section Induction

variable {watch : σ → Step κ γ → σ} {notes : σ} {settings : Settings}
  {ids : Nat → UInt16}

/-- What holds at first and outlasts every event holds after every run. -/
theorem run_invariant (motive : Watched κ γ σ → Prop)
    (hcreate : motive ⟨.create settings ids, 0, notes⟩)
    (hnext : ∀ watched event, motive watched →
      motive (next watch watched event))
    (events : List (Event κ γ)) :
    motive (run watch notes settings ids events) := by
  induction events using List.reverseRecOn with
  | nil => exact hcreate
  | append_singleton events event ih =>
      rw [run, List.foldl_append]
      exact hnext _ event ih

/-- What holds at first and outlasts every step holds after every run. -/
theorem run_induction (motive : Engine κ γ → σ → Prop)
    (hcreate : motive (.create settings ids) notes)
    (hstep : ∀ (watched : Watched κ γ σ) (event : Event κ γ),
      motive watched.engine watched.notes →
      watched.engine.Move watched.now event (watched.step event).effect →
      motive (watched.step event).after
      (watch watched.notes (watched.step event)))
    (events : List (Event κ γ)) :
    motive (run watch notes settings ids events).engine
      (run watch notes settings ids events).notes :=
  run_invariant (fun watched => motive watched.engine watched.notes) hcreate
    (fun watched event hwatched =>
      hstep watched event hwatched (perform_move _ _ event)) events

end Induction

end Watched

end Engine

end DnsForwarder
