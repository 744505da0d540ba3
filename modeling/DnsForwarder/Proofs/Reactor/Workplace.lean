import DnsForwarder.Reactor.Dispatcher
import DnsForwarder.Proofs.Reactor.Traffic
import Mathlib.Logic.Function.Basic

/-! A dispatcher between threads. Calls of threads come apart into the look at
the request to stop, the push, its signal and the wait for a value; the loop of
the reactor comes apart into its wake-ups, its tasks one by one and the parts of
its end. The steps of all of them mix in any way. -/

namespace DnsForwarder

def Bridge.map {α β : Type} (f : α → β) (bridge : Bridge α) : Bridge β where
  items := bridge.items.map f
  closed := bridge.closed
  permit := bridge.permit
  watch := bridge.watch

/-- What a thread wants done by the thread of a reactor, and the value that it
wants back. It may ask the reactor to stop, but not take that back. -/
structure Job (ρ σ β : Type) where
  work : Reactor ρ × σ → (Reactor ρ × σ) × β
  stopping_work : ∀ place, place.1.stopping → (work place).1.1.stopping
  name_work : ∀ place, (work place).1.1.name = place.1.name

/-- A job that the queue has taken. Errands are numbered in the order in which
it takes them. -/
structure Errand (τ ρ σ β : Type) where
  number : Nat
  thread : τ
  awaited : Bool
  job : Job ρ σ β

inductive CallStage (τ ρ σ β : Type) where
  | idle
  | checked (awaited : Bool) (job : Job ρ σ β)
  /-- It has pushed onto an empty queue and not given the signal yet. -/
  | due (errand : Errand τ ρ σ β)
  | waiting (errand : Errand τ ρ σ β)

inductive LoopPhase where
  | looping
  /-- It has seen that it has to end, and stops the components next. -/
  | leaving
  | unloaded
  | shut
  | dropping
  | ended
  deriving DecidableEq

def LoopPhase.isOver : LoopPhase → Bool
  | .shut | .dropping | .ended => true
  | .looping | .leaving | .unloaded => false

/-- The parts of a dispatcher, the threads that call it, and what has
happened. -/
structure Workplace (τ ρ σ β : Type) where
  reactor : Reactor ρ
  state : σ
  sent : List (Nat × β) := []
  bridge : Bridge (Errand τ ρ σ β) := { watch := .asking }
  phase : LoopPhase := .looping
  running : Option (Errand τ ρ σ β) := none
  /-- What the loop has taken out of the ended queue and not dropped yet. -/
  discarded : List (Errand τ ρ σ β) := []
  stage : τ → CallStage τ ρ σ β := fun _ => .idle
  accepted : List (Errand τ ρ σ β) := []
  returned : List (Errand τ ρ σ β) := []
  refused : List (τ × Bool × Error) := []
  ran : List (Errand τ ρ σ β) := []
  dropped : List (Errand τ ρ σ β) := []
  answers : List (Errand τ ρ σ β × Except Error β) := []

variable {τ ρ σ β : Type}

def Errand.task (errand : Errand τ ρ σ β) :
    ReactorTask ρ (σ × List (Nat × β)) :=
  fun (reactor, state, sent) =>
    let ((reactor, state), value) := errand.job.work (reactor, state)
    (reactor, state, sent ++ [(errand.number, value)])

namespace Workplace

inductive Action (τ ρ σ β : Type) where
  | begin (thread : τ) (awaited : Bool) (job : Job ρ σ β)
  | proceed (thread : τ)
  | stop
  | loop

def create (name : String) (state : σ) : Workplace τ ρ σ β :=
  { reactor := .create name, state }

/-- The dispatcher, which knows its tasks but not whose they are. -/
def dispatcher (place : Workplace τ ρ σ β) :
    Dispatcher ρ (σ × List (Nat × β)) where
  reactor := place.reactor
  state := (place.state, place.sent)
  tasks := place.bridge.map Errand.task
  isStopped := place.phase = .ended

section Threads

variable [DecidableEq τ]

def enter (place : Workplace τ ρ σ β) (thread : τ) (stage : CallStage τ ρ σ β) :
    Workplace τ ρ σ β :=
  { place with stage := Function.update place.stage thread stage }

@[simp] theorem enter_accepted (place : Workplace τ ρ σ β) (thread : τ)
    (stage : CallStage τ ρ σ β) :
    (place.enter thread stage).accepted = place.accepted := rfl

@[simp] theorem enter_returned (place : Workplace τ ρ σ β) (thread : τ)
    (stage : CallStage τ ρ σ β) :
    (place.enter thread stage).returned = place.returned := rfl

def refuse (place : Workplace τ ρ σ β) (thread : τ) (awaited : Bool)
    (error : Error) :
    Workplace τ ρ σ β :=
  { place.enter thread .idle with
    refused := place.refused ++ [(thread, awaited, error)] }

/-- The error of a call that gets no errand. The thread of the reactor, here
`own`, must not wait for itself. -/
def refusal (name : String) (own thread : τ) (awaited : Bool) : Error :=
  if awaited && thread = own then .wouldBlock s!"call() on dispatcher '{name}'"
  else .dispatcherStopped name

def begin (own : τ) (place : Workplace τ ρ σ β) (thread : τ) (awaited : Bool)
    (job : Job ρ σ β) :
    Workplace τ ρ σ β :=
  if awaited && thread = own then
    place.refuse thread awaited (place.dispatcher.blockingError "call")
  else if place.reactor.stopping then
    place.refuse thread awaited place.dispatcher.stoppedError
  else place.enter thread (.checked awaited job)

def grant (place : Workplace τ ρ σ β) (errand : Errand τ ρ σ β) :
    Workplace τ ρ σ β :=
  { place.enter errand.thread
      (if errand.awaited then .waiting errand else .idle) with
    returned := place.returned ++ [errand] }

def push (place : Workplace τ ρ σ β) (thread : τ) (awaited : Bool)
    (job : Job ρ σ β) :
    Workplace τ ρ σ β :=
  let errand : Errand τ ρ σ β := ⟨place.accepted.length, thread, awaited, job⟩
  match place.bridge.push errand with
  | .error _ => place.refuse thread awaited place.dispatcher.stoppedError
  | .ok (bridge, due) =>
      let place := { place with bridge, accepted := place.accepted ++ [errand] }
      if due then place.enter thread (.due errand) else place.grant errand

def answer (place : Workplace τ ρ σ β) (errand : Errand τ ρ σ β)
    (result : Except Error β) :
    Workplace τ ρ σ β :=
  { place.enter errand.thread .idle with
    answers := place.answers ++ [(errand, result)] }

/-- A call returns with the value that was sent, or with an error once none can
be sent any more. -/
def receive (place : Workplace τ ρ σ β) (errand : Errand τ ρ σ β) :
    Workplace τ ρ σ β :=
  match place.sent.lookup errand.number with
  | some value => place.answer errand (.ok value)
  | none =>
      if place.dropped.any (·.number = errand.number) then
        place.answer errand (.error place.dispatcher.stoppedError)
      else place

def proceed (place : Workplace τ ρ σ β) (thread : τ) : Workplace τ ρ σ β :=
  match place.stage thread with
  | .idle => place
  | .checked awaited job => place.push thread awaited job
  | .due errand => { place with bridge := place.bridge.notify }.grant errand
  | .waiting errand => place.receive errand

end Threads

section Loop

/-- A request to stop goes before the signal. -/
def wake (place : Workplace τ ρ σ β) : Workplace τ ρ σ β :=
  if place.reactor.stopping then { place with phase := .leaving }
  else
    let bridge := place.bridge.poll
    { place with
      bridge, phase := if bridge.watch = .ended then .leaving else .looping }

def take (place : Workplace τ ρ σ β) : Workplace τ ρ σ β :=
  match place.bridge.consume with
  | (bridge, some errand) => { place with bridge, running := some errand }
  | (bridge, none) => { place with bridge := { bridge with watch := .asking } }

def work (place : Workplace τ ρ σ β) (errand : Errand τ ρ σ β) :
    Workplace τ ρ σ β :=
  let (reactor, state, sent) :=
    errand.task (place.reactor, place.state, place.sent)
  { place with
    reactor, state, sent, running := none, ran := place.ran ++ [errand] }

def loop (stop : ρ → σ → σ) (place : Workplace τ ρ σ β) : Workplace τ ρ σ β :=
  match place.phase with
  | .looping =>
      match place.running with
      | some errand => place.work errand
      | none =>
          if place.bridge.watch = .handling then place.take else place.wake
  | .leaving =>
      let (reactor, state) := place.reactor.unloadAll stop place.state
      { place with reactor, state, phase := .unloaded }
  | .unloaded =>
      let (bridge, discarded) := place.bridge.shut
      { place with bridge, discarded, phase := .shut }
  | .shut => { place with bridge := place.bridge.notify, phase := .dropping }
  | .dropping =>
      match place.discarded with
      | errand :: discarded =>
          { place with discarded, dropped := place.dropped ++ [errand] }
      | [] => { place with phase := .ended }
  | .ended => place

variable {stop : ρ → σ → σ} {place : Workplace τ ρ σ β}

theorem loop_of_running (hlooping : place.phase = .looping)
    {errand : Errand τ ρ σ β} (hrunning : place.running = some errand) :
    place.loop stop = place.work errand := by
  simp [loop, hlooping, hrunning]

theorem loop_of_filled (hlooping : place.phase = .looping)
    (hrunning : place.running = none)
    (hwatch : place.bridge.watch = .handling) {errand : Errand τ ρ σ β}
    {rest : List (Errand τ ρ σ β)}
    (hitems : place.bridge.items = errand :: rest) :
    place.loop stop =
      { place with
        bridge := { place.bridge with items := rest }
        running := some errand } := by
  simp [loop, hlooping, hrunning, hwatch, take, Bridge.consume, hitems]

theorem loop_loop (hlooping : place.phase = .looping)
    (hrunning : place.running = none)
    (hwatch : place.bridge.watch = .handling) {errand : Errand τ ρ σ β}
    {rest : List (Errand τ ρ σ β)}
    (hitems : place.bridge.items = errand :: rest) :
    (place.loop stop).loop stop =
      { place with bridge := { place.bridge with items := rest } }.work
        errand := by
  let taken : Workplace τ ρ σ β :=
    { place with
      bridge := { place.bridge with items := rest }, running := some errand }
  have htaken : taken.phase = .looping := hlooping
  have hworked : taken.loop stop = taken.work errand :=
    loop_of_running htaken rfl
  rw [loop_of_filled hlooping hrunning hwatch hitems]
  exact hworked

theorem loop_of_empty (hlooping : place.phase = .looping)
    (hrunning : place.running = none)
    (hwatch : place.bridge.watch = .handling)
    (hitems : place.bridge.items = []) :
    place.loop stop =
      { place with bridge := { place.bridge with watch := .asking } } := by
  simp [loop, hlooping, hrunning, hwatch, take, Bridge.consume, hitems]

theorem loop_of_stopping (hlooping : place.phase = .looping)
    (hrunning : place.running = none)
    (hwatch : place.bridge.watch ≠ .handling)
    (hstopping : place.reactor.stopping) :
    place.loop stop = { place with phase := .leaving } := by
  simp [loop, hlooping, hrunning, hwatch, wake, hstopping]

theorem loop_of_waking (hlooping : place.phase = .looping)
    (hrunning : place.running = none)
    (hwatch : place.bridge.watch ≠ .handling)
    (hstopping : place.reactor.stopping = false) :
    place.loop stop =
      { place with
        bridge := place.bridge.poll
        phase :=
          if place.bridge.poll.watch = .ended then .leaving
          else .looping } := by
  simp [loop, hlooping, hrunning, hwatch, wake, hstopping]

theorem loop_of_leaving (hleaving : place.phase = .leaving) :
    place.loop stop =
      { place with
        reactor := (place.reactor.unloadAll stop place.state).1
        state := (place.reactor.unloadAll stop place.state).2
        phase := .unloaded } := by
  simp [loop, hleaving]

theorem loop_of_unloaded (hunloaded : place.phase = .unloaded) :
    place.loop stop =
      { place with
        bridge := place.bridge.shut.1
        discarded := place.bridge.shut.2
        phase := .shut } := by
  simp [loop, hunloaded]

theorem loop_of_shut (hshut : place.phase = .shut) :
    place.loop stop =
      { place with bridge := place.bridge.notify, phase := .dropping } := by
  simp [loop, hshut]

theorem loop_of_discarded (hdropping : place.phase = .dropping)
    {errand : Errand τ ρ σ β} {rest : List (Errand τ ρ σ β)}
    (hdiscarded : place.discarded = errand :: rest) :
    place.loop stop =
      { place with
        discarded := rest, dropped := place.dropped ++ [errand] } := by
  simp [loop, hdropping, hdiscarded]

theorem loop_of_dropped (hdropping : place.phase = .dropping)
    (hdiscarded : place.discarded = []) :
    place.loop stop = { place with phase := .ended } := by
  simp [loop, hdropping, hdiscarded]

end Loop

variable [DecidableEq τ]

def act (own : τ) (stop : ρ → σ → σ) (place : Workplace τ ρ σ β) :
    Action τ ρ σ β → Workplace τ ρ σ β
  | .begin thread awaited job =>
      match place.stage thread with
      | .idle => place.begin own thread awaited job
      | .checked .. | .due _ | .waiting _ => place
  | .proceed thread => place.proceed thread
  | .stop => { place with reactor := place.reactor.stop }
  | .loop => place.loop stop

def run (name : String) (state : σ) (own : τ) (stop : ρ → σ → σ)
    (steps : List (Action τ ρ σ β)) :
    Workplace τ ρ σ β :=
  steps.foldl (act own stop) (create name state)

inductive Move (own : τ) (stop : ρ → σ → σ) (place : Workplace τ ρ σ β) :
    Workplace τ ρ σ β → Prop
  | none : Move own stop place place
  | refused (thread : τ) (awaited : Bool) (error : Error)
      (hstage : place.stage thread = .idle ∨ ∃ job, place.stage thread =
        .checked awaited job)
      (herror : error = refusal place.reactor.name own thread awaited) :
      Move own stop place (place.refuse thread awaited error)
  | checked (thread : τ) (awaited : Bool) (job : Job ρ σ β)
    (hidle : place.stage thread = .idle)
      (hother : awaited = true → thread ≠ own) :
      Move own stop place (place.enter thread (.checked awaited job))
  | pushed (thread : τ) (awaited : Bool) (job : Job ρ σ β)
      (hchecked : place.stage thread = .checked awaited job)
      (hopen : place.bridge.closed = false) (hempty : place.bridge.items = []) :
      Move own stop place
        (let errand : Errand τ ρ σ β :=
          ⟨place.accepted.length, thread, awaited, job⟩
        { place with
          bridge :=
            { place.bridge with items := place.bridge.items ++ [errand] }
          accepted := place.accepted ++ [errand] }.enter thread (.due errand))
  | queued (thread : τ) (awaited : Bool) (job : Job ρ σ β)
      (hchecked : place.stage thread = .checked awaited job)
      (hopen : place.bridge.closed = false)
      (hfilled : place.bridge.items ≠ []) :
      Move own stop place
        (let errand : Errand τ ρ σ β :=
          ⟨place.accepted.length, thread, awaited, job⟩
        { place with
          bridge :=
            { place.bridge with items := place.bridge.items ++ [errand] }
          accepted := place.accepted ++ [errand] }.grant errand)
  | signalled (thread : τ) (errand : Errand τ ρ σ β)
    (hdue : place.stage thread = .due errand) :
      Move own stop place
        ({ place with bridge := place.bridge.notify }.grant errand)
  | received (thread : τ) (errand : Errand τ ρ σ β) (value : β)
      (hwaiting : place.stage thread = .waiting errand)
      (hsent : (errand.number, value) ∈ place.sent) :
      Move own stop place (place.answer errand (.ok value))
  | abandoned (thread : τ) (errand : Errand τ ρ σ β)
      (hwaiting : place.stage thread = .waiting errand)
      (hdropped : errand.number ∈ place.dropped.map Errand.number) :
      Move own stop place
        (place.answer errand (.error place.dispatcher.stoppedError))
  | stopped : Move own stop place { place with reactor := place.reactor.stop }
  | left (hlooping : place.phase = .looping)
    (hrunning : place.running = Option.none)
      (hreason : place.reactor.stopping) :
      Move own stop place { place with phase := .leaving }
  | polled (hlooping : place.phase = .looping)
    (hrunning : place.running = Option.none)
      (hwatch : place.bridge.watch ≠ .handling) :
      Move own stop place
        { place with
          bridge := place.bridge.poll
          phase :=
            if place.bridge.poll.watch = .ended then .leaving else .looping }
  | took (errand : Errand τ ρ σ β) (rest : List (Errand τ ρ σ β))
      (hlooping : place.phase = .looping)
      (hrunning : place.running = Option.none)
      (hwatch : place.bridge.watch = .handling)
      (hitems : place.bridge.items = errand :: rest) :
      Move own stop place
        { place with
          bridge := { place.bridge with items := rest }
          running := some errand }
  | rested (hlooping : place.phase = .looping)
    (hrunning : place.running = Option.none)
      (hwatch : place.bridge.watch = .handling)
      (hitems : place.bridge.items = []) :
      Move own stop place
        { place with bridge := { place.bridge with watch := .asking } }
  | worked (errand : Errand τ ρ σ β) (hlooping : place.phase = .looping)
      (hrunning : place.running = some errand) :
      Move own stop place (place.work errand)
  | unloaded (hleaving : place.phase = .leaving) :
      Move own stop place
        { place with
          reactor := (place.reactor.unloadAll stop place.state).1
          state := (place.reactor.unloadAll stop place.state).2
          phase := .unloaded }
  | shut (hunloaded : place.phase = .unloaded) :
      Move own stop place
        { place with
          bridge := place.bridge.shut.1
          discarded := place.bridge.shut.2
          phase := .shut }
  | announced (hshut : place.phase = .shut) :
      Move own stop place
        { place with bridge := place.bridge.notify, phase := .dropping }
  | droppedNext (errand : Errand τ ρ σ β) (rest : List (Errand τ ρ σ β))
      (hdropping : place.phase = .dropping)
      (hdiscarded : place.discarded = errand :: rest) :
      Move own stop place
        { place with discarded := rest, dropped := place.dropped ++ [errand] }
  | ended (hdropping : place.phase = .dropping)
    (hdiscarded : place.discarded = []) :
      Move own stop place { place with phase := .ended }

variable {own : τ} {stop : ρ → σ → σ}

theorem begin_move (place : Workplace τ ρ σ β) (thread : τ) (awaited : Bool)
    (job : Job ρ σ β) (hidle : place.stage thread = .idle) :
    Move own stop place (place.begin own thread awaited job) := by
  rw [begin]
  split
  next hown =>
    exact .refused thread awaited _ (.inl hidle)
      (by rw [refusal, if_pos hown]; rfl)
  next hother =>
    split
    next =>
      exact .refused thread awaited _ (.inl hidle)
        (by rw [refusal, if_neg hother]; rfl)
    next => exact .checked thread awaited job hidle (by simpa using hother)

theorem push_move (place : Workplace τ ρ σ β) (thread : τ) (awaited : Bool)
    (job : Job ρ σ β) (hchecked : place.stage thread = .checked awaited job)
    (hother : awaited = true → thread ≠ own) :
    Move own stop place (place.push thread awaited job) := by
  cases hclosed : place.bridge.closed with
  | true =>
      have hown : ¬(awaited && decide (thread = own)) = true :=
        by simpa using hother
      simp only [push, Bridge.push, hclosed, if_true]
      exact .refused thread awaited _ (.inr ⟨job, hchecked⟩)
        (by rw [refusal, if_neg hown]; rfl)
  | false =>
      simp only [push, Bridge.push, hclosed, Bool.false_eq_true, if_false]
      by_cases hempty : place.bridge.items = []
      · rw [if_pos (List.isEmpty_iff.mpr hempty)]
        exact hclosed ▸ .pushed thread awaited job hchecked hclosed hempty
      · rw [if_neg (by simpa using hempty)]
        exact hclosed ▸ .queued thread awaited job hchecked hclosed hempty

theorem receive_move (place : Workplace τ ρ σ β) (thread : τ)
    (errand : Errand τ ρ σ β)
    (hwaiting : place.stage thread = .waiting errand) :
    Move own stop place (place.receive errand) := by
  rw [receive]
  cases hsent : place.sent.lookup errand.number with
  | some value =>
      obtain ⟨front, back, hsplit, -⟩ := List.lookup_eq_some_iff.mp hsent
      exact .received thread errand value hwaiting (by simp [hsplit])
  | none =>
      dsimp only
      split
      next hdropped =>
        exact .abandoned thread errand hwaiting (by simpa using hdropped)
      next => exact .none

theorem loop_move (place : Workplace τ ρ σ β) :
    Move own stop place (place.loop stop) := by
  cases hphase : place.phase with
  | looping =>
      cases hrunning : place.running with
      | some errand =>
          rw [loop_of_running hphase hrunning]
          exact .worked errand hphase hrunning
      | none =>
          by_cases hwatch : place.bridge.watch = .handling
          · cases hitems : place.bridge.items with
            | nil =>
                rw [loop_of_empty hphase hrunning hwatch hitems]
                exact .rested hphase hrunning hwatch hitems
            | cons errand rest =>
                rw [loop_of_filled hphase hrunning hwatch hitems]
                exact .took errand rest hphase hrunning hwatch hitems
          · cases hstopping : place.reactor.stopping with
            | true =>
                rw [loop_of_stopping hphase hrunning hwatch hstopping]
                exact .left hphase hrunning hstopping
            | false =>
                rw [loop_of_waking hphase hrunning hwatch hstopping]
                exact .polled hphase hrunning hwatch
  | leaving =>
      rw [loop_of_leaving hphase]
      exact .unloaded hphase
  | unloaded =>
      rw [loop_of_unloaded hphase]
      exact .shut hphase
  | shut =>
      rw [loop_of_shut hphase]
      exact .announced hphase
  | dropping =>
      cases hdiscarded : place.discarded with
      | nil =>
          rw [loop_of_dropped hphase hdiscarded]
          exact .ended hphase hdiscarded
      | cons errand rest =>
          rw [loop_of_discarded hphase hdiscarded]
          exact .droppedNext errand rest hphase hdiscarded
  | ended => simpa [loop, hphase] using Move.none

def Fits (own : τ) (place : Workplace τ ρ σ β) (thread : τ) :
    CallStage τ ρ σ β → Prop
  | .idle => True
  | .checked awaited _ => awaited = true → thread ≠ own
  | .due errand =>
      errand ∈ place.accepted ∧ errand.thread = thread ∧
        (errand.awaited = true → thread ≠ own)
  | .waiting errand =>
      errand ∈ place.accepted ∧ errand.thread = thread ∧ errand.awaited = true ∧
        thread ≠ own

theorem act_move {place : Workplace τ ρ σ β}
    (hfits : ∀ thread, place.Fits own thread (place.stage thread))
    (action : Action τ ρ σ β) :
    Move own stop place (place.act own stop action) := by
  cases action with
  | begin thread awaited job =>
      cases hstage : place.stage thread with
      | idle =>
          simpa [act, hstage] using begin_move place thread awaited job hstage
      | checked | due | waiting => simpa [act, hstage] using Move.none
  | proceed thread =>
      have hfit := hfits thread
      cases hstage : place.stage thread with
      | idle => simpa [act, proceed, hstage] using Move.none
      | checked awaited job =>
          rw [hstage] at hfit
          simpa [act, proceed, hstage] using push_move place thread awaited
            job hstage hfit
      | due errand =>
          simpa [act, proceed, hstage] using Move.signalled thread errand hstage
      | waiting errand =>
          simpa [act, proceed, hstage] using receive_move place thread
            errand hstage
  | stop => exact .stopped
  | loop => exact loop_move place

end Workplace

end DnsForwarder
