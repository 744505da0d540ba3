import DnsForwarder.Proofs.Reactor.Workplace
import Mathlib.Logic.Function.Iterate

/-! Calls and rounds of the loop that no other step comes between. Their parts
make up the functions of the dispatcher. -/

namespace DnsForwarder

namespace Bridge

variable {α β : Type} (f : α → β) (bridge : Bridge α)

theorem map_notify : (bridge.map f).notify = bridge.notify.map f := by
  by_cases hwaiting : bridge.watch = .waiting <;> simp [notify, map, hwaiting]

theorem map_poll : (bridge.map f).poll = bridge.poll.map f := by
  cases hwatch : bridge.watch with
  | asking =>
      cases hclosed : bridge.closed <;> cases hpermit : bridge.permit <;>
        simp [poll, map, hwatch, hclosed, hpermit]
  | woken => simp [poll, map, hwatch]
  | absent | waiting | handling | ended => simp [poll, map, hwatch]

theorem poll_unended (hopen : bridge.closed = false)
    (hunended : bridge.watch ≠ .ended) :
    bridge.poll.watch ≠ .ended := by
  cases hwatch : bridge.watch with
  | asking =>
      cases hpermit : bridge.permit <;> simp [poll, hwatch, hopen, hpermit]
  | ended => exact absurd hwatch hunended
  | absent | waiting | woken | handling => simp [poll, hwatch, hopen]

theorem map_close : (bridge.map f).close.1 = bridge.close.1.map f := by
  simp only [close]
  cases hclosed : bridge.closed with
  | true => simp [map, hclosed]
  | false =>
      have hnotify := map_notify f { bridge with items := [], closed := true }
      simpa [map, hclosed] using hnotify

end Bridge

namespace Workplace

variable {τ ρ σ β : Type} {place : Workplace τ ρ σ β} {own : τ}
  {stop : ρ → σ → σ}

section Calls

variable [DecidableEq τ] {thread : τ}

theorem execute_parts (hidle : place.stage thread = .idle) (job : Job ρ σ β) :
    let task := Errand.task (τ := τ) ⟨place.accepted.length, thread, false, job⟩
    let done := ((place.act own stop (.begin thread false job)).act own stop
      (.proceed thread)).act own stop (.proceed thread)
    match place.dispatcher.execute task with
    | .ok dispatcher => done.dispatcher = dispatcher
    | .error error =>
        done.dispatcher = place.dispatcher ∧
          done.refused = place.refused ++ [(thread, false, error)] := by
  intro task done
  cases hstopping : place.reactor.stopping with
  | true =>
      have hdone :
          done = place.refuse thread false place.dispatcher.stoppedError := by
        simp [done, act, hidle, begin, hstopping, refuse, enter, proceed]
      simp [Dispatcher.execute, dispatcher, hstopping, hdone, refuse, enter]
  | false =>
      cases hclosed : place.bridge.closed with
      | true =>
          have hdone :
              done = place.refuse thread false
              place.dispatcher.stoppedError := by
            simp [done, act, hidle, begin, hstopping, hclosed, push,
              Bridge.push, refuse, enter,
              proceed, dispatcher, Dispatcher.stoppedError, Dispatcher.name]
          simp [Dispatcher.execute, dispatcher, hstopping, Bridge.produce,
            Bridge.push, Bridge.map, hclosed, Except.map, hdone, refuse, enter]
      | false =>
          let errand : Errand τ ρ σ β :=
            ⟨place.accepted.length, thread, false, job⟩
          let pushed :=
            { place.bridge with items := place.bridge.items ++ [errand] }
          by_cases hempty : place.bridge.items = []
          · have hdone : done.dispatcher =
                { place.dispatcher with
                  tasks := pushed.notify.map Errand.task } := by
              simp [done, act, hidle, begin, hstopping, hclosed, hempty, push,
                Bridge.push, grant, enter, proceed, dispatcher, pushed, errand]
            rw [hdone, ← Bridge.map_notify]
            simp [Dispatcher.execute, dispatcher, hstopping, Bridge.produce,
              Bridge.push,
              Bridge.map, hclosed, hempty, Except.map, pushed, errand, task]
          · have hdone : done.dispatcher =
                { place.dispatcher with tasks := pushed.map Errand.task } := by
              simp [done, act, hidle, begin, hstopping, hclosed, hempty, push,
                Bridge.push, grant, enter, proceed, dispatcher, pushed, errand]
            rw [hdone]
            simp [Dispatcher.execute, dispatcher, hstopping, Bridge.produce,
              Bridge.push,
              Bridge.map, hclosed, hempty, Except.map, pushed, errand, task]

end Calls

section Rounds

def LoopsTo (stop : ρ → σ → σ) (place : Workplace τ ρ σ β)
    (goal : Workplace τ ρ σ β → Prop) :
    Prop :=
  ∃ count, goal ((loop stop)^[count] place)

variable {goal : Workplace τ ρ σ β → Prop}

theorem LoopsTo.now (hgoal : goal place) : LoopsTo stop place goal :=
  ⟨0, hgoal⟩

theorem LoopsTo.head (hloops : LoopsTo stop (place.loop stop) goal) :
    LoopsTo stop place goal := by
  obtain ⟨count, hgoal⟩ := hloops
  exact ⟨count + 1, hgoal⟩

theorem LoopsTo.trans {middle : Workplace τ ρ σ β → Prop}
    (hfirst : LoopsTo stop place middle)
    (hsecond : ∀ later, middle later → LoopsTo stop later goal) :
    LoopsTo stop place goal := by
  obtain ⟨first, hmiddle⟩ := hfirst
  obtain ⟨second, hgoal⟩ := hsecond _ hmiddle
  exact ⟨second + first, by rwa [Function.iterate_add_apply]⟩

structure Between (place : Workplace τ ρ σ β) : Prop where
  looping : place.phase = .looping
  running : place.running = none
  watch : place.bridge.watch ≠ .handling
  unended : place.bridge.watch ≠ .ended
  isOpen : place.bridge.closed = false

/-- What tasks do to a dispatcher that takes them out of its queue one by
one. -/
def ranBatch (place : Workplace τ ρ σ β) : Dispatcher ρ (σ × List (Nat × β)) :=
  let tasks := place.dispatcher.tasks
  let (reactor, state) := (Dispatcher.runBatch tasks
    (place.dispatcher.reactor, place.dispatcher.state)).2
  { place.dispatcher with
    reactor, state, tasks := { tasks with items := [], watch := .asking } }

theorem loops_batch (hlooping : place.phase = .looping)
    (hrunning : place.running = none)
    (hwatch : place.bridge.watch = .handling)
    (hopen : place.bridge.closed = false) :
    LoopsTo stop place fun later => later.dispatcher = place.ranBatch ∧
      Between later := by
  induction hitems : place.bridge.items generalizing place with
  | nil =>
      apply LoopsTo.head
      rw [loop_of_empty hlooping hrunning hwatch hitems]
      apply LoopsTo.now
      refine ⟨?_, hlooping, hrunning, nofun, nofun, hopen⟩
      simp [ranBatch, Dispatcher.runBatch, dispatcher, Bridge.map, hitems]
  | cons errand rest ih =>
      apply LoopsTo.head
      apply LoopsTo.head
      rw [loop_loop hlooping hrunning hwatch hitems]
      let worked :=
        { place with bridge := { place.bridge with items := rest } }.work errand
      have hworked : worked.phase = .looping := hlooping
      have hbatch : worked.ranBatch = place.ranBatch := by
        simp [worked, ranBatch, Dispatcher.runBatch, dispatcher, Bridge.map,
          hitems, work]
      rw [← hbatch]
      exact ih hworked rfl hwatch hopen rfl

theorem loops_dropping (hdropping : place.phase = .dropping) :
    LoopsTo stop place fun later =>
      later.dispatcher = { place.dispatcher with isStopped := true } := by
  induction hdiscarded : place.discarded generalizing place with
  | nil =>
      apply LoopsTo.head
      rw [loop_of_dropped hdropping hdiscarded]
      exact .now rfl
  | cons errand rest ih =>
      apply LoopsTo.head
      rw [loop_of_discarded hdropping hdiscarded]
      exact ih hdropping rfl

/-- What stops components leaves alone what tasks have sent. -/
def keeping (stop : ρ → σ → σ) (runnable : ρ) :
    σ × List (Nat × β) → σ × List (Nat × β) :=
  Prod.map (stop runnable) id

theorem unloadAll_keeping (reactor : Reactor ρ) (state : σ)
    (sent : List (Nat × β)) :
    reactor.unloadAll (keeping stop) (state, sent) =
      ((reactor.unloadAll stop state).1,
        (reactor.unloadAll stop state).2, sent) := by
  simp only [Reactor.unloadAll, Prod.mk.injEq, true_and]
  induction reactor.runnables with
  | nil => rfl
  | cons runnable rest ih =>
      rw [List.foldr_cons, ih]
      rfl

theorem loops_finish (hbetween : Between place)
    (hstopping : place.reactor.stopping) :
    LoopsTo stop place fun later =>
      later.dispatcher = place.dispatcher.finish (keeping stop) := by
  apply LoopsTo.head
  rw [loop_of_stopping hbetween.looping hbetween.running
      hbetween.watch hstopping]
  apply LoopsTo.head
  rw [loop_of_leaving rfl]
  apply LoopsTo.head
  rw [loop_of_unloaded rfl]
  apply LoopsTo.head
  rw [loop_of_shut rfl]
  refine (loops_dropping rfl).trans fun later hlater => .now (hlater.trans ?_)
  have hclose : place.bridge.close.1 = place.bridge.shut.1.notify := by
    simp [Bridge.close_eq, hbetween.isOpen]
  have htasks : (place.bridge.map Errand.task).close.1 =
      place.bridge.shut.1.notify.map Errand.task :=
      by rw [Bridge.map_close, hclose]
  simp [Dispatcher.finish, dispatcher, unloadAll_keeping, htasks]

theorem turn_of_stopping (hnot : place.dispatcher.isStopped = false)
    (hstopping : place.reactor.stopping) :
    place.dispatcher.turn (keeping stop) =
      place.dispatcher.finish (keeping stop) := by
  have hdispatcher : place.dispatcher.reactor.stopping := hstopping
  rw [Dispatcher.turn, hnot, if_neg Bool.false_ne_true, if_pos hdispatcher]

def polled (place : Workplace τ ρ σ β) : Workplace τ ρ σ β :=
  { place with bridge := place.bridge.poll, phase := .looping }

theorem turn_of_going (hnot : place.dispatcher.isStopped = false)
    (hstopping : place.reactor.stopping = false) :
    place.dispatcher.turn (keeping stop) =
      let turned :=
        if place.polled.bridge.watch = .handling then place.polled.ranBatch
        else place.polled.dispatcher
      if turned.reactor.stopping then turned.finish (keeping stop)
      else turned := by
  have hdispatcher : place.dispatcher.reactor.stopping = false := hstopping
  have hpolled : place.dispatcher.tasks.poll = place.polled.dispatcher.tasks :=
    Bridge.map_poll Errand.task place.bridge
  have hwatch : place.polled.dispatcher.tasks.watch =
      place.polled.bridge.watch := rfl
  rw [Dispatcher.turn, hnot, hdispatcher]
  simp only [Bool.false_eq_true, if_false, Bridge.work, hpolled, hwatch]
  split <;> rfl

theorem loops_ranBatch (hrunning : place.running = none)
    (hopen : place.bridge.closed = false) (hlooping : place.phase = .looping)
    (hwatch : place.bridge.watch = .handling) :
    LoopsTo stop place fun later => later.dispatcher =
      if place.ranBatch.reactor.stopping then
        place.ranBatch.finish (keeping stop)
      else place.ranBatch := by
  refine (loops_batch hlooping hrunning hwatch hopen).trans fun later
    ⟨hlater, hnext⟩ => ?_
  rw [← hlater]
  cases hstop : later.reactor.stopping with
  | true =>
      have hdone : later.dispatcher.reactor.stopping := hstop
      rw [if_pos hdone]
      exact loops_finish hnext hstop
  | false =>
      have hgoing : ¬later.dispatcher.reactor.stopping = true :=
        by simp [dispatcher, hstop]
      rw [if_neg hgoing]
      exact .now rfl

/-- Between two batches, steps of the loop alone lead to where a turn of the
dispatcher does. -/
theorem turn_parts (hbetween : Between place) :
    LoopsTo stop place fun later =>
      later.dispatcher = place.dispatcher.turn (keeping stop) := by
  obtain ⟨hlooping, hrunning, hwatch, hunended, hopen⟩ := id hbetween
  have hnot : place.dispatcher.isStopped = false :=
    by simp [dispatcher, hlooping]
  cases hstopping : place.reactor.stopping with
  | true =>
      rw [turn_of_stopping hnot hstopping]
      exact loops_finish hbetween hstopping
  | false =>
      rw [turn_of_going hnot hstopping]
      apply LoopsTo.head
      rw [loop_of_waking hlooping hrunning hwatch hstopping,
        if_neg (place.bridge.poll_unended hopen hunended)]
      by_cases hhandling : place.polled.bridge.watch = .handling
      · rw [if_pos hhandling]
        exact loops_ranBatch hrunning ((Bridge.poll_closed _).trans hopen)
          rfl hhandling
      · have hgoing : ¬place.polled.dispatcher.reactor.stopping = true := by
          simp [polled, dispatcher, hstopping]
        simp only [if_neg hhandling, if_neg hgoing]
        exact .now rfl

end Rounds

end Workplace

end DnsForwarder
