import DnsForwarder.Proofs.Engine.Contexts
import DnsForwarder.Proofs.Engine.Delivery

/-! What a cancellation changes. Two runs are set side by side, one with a
cancellation that the other one lacks. Requests are numbered by their places in
the run, so that those of one run are found again in the other. -/

namespace DnsForwarder.Engine

variable {κ γ : Type}

def trace [DecidableEq κ] (engine : Engine κ γ) (now : Nat) :
    List (Event κ γ) → List (Step κ γ)
  | [] => []
  | event :: events =>
      let effect := engine.perform now event
      ⟨engine, now, event, effect⟩ :: trace effect.engine
        (event.clock now) events

/-- Events with their places in a run beside the contexts of the requests that
they make. -/
def numbered (start : Nat) : List (Event κ γ) → List (Event κ (Nat × γ))
  | [] => []
  | event :: events =>
      event.mapContext (start, ·) :: numbered (start + 1) events

section Numbers

def Step.mapContext {δ : Type} (mark : γ → δ) (step : Step κ γ) : Step κ δ where
  before := step.before.mapContext mark
  now := step.now
  event := step.event.mapContext mark
  effect := step.effect.mapContext mark

theorem Event.clock_mapContext {δ : Type} (mark : γ → δ) (event : Event κ γ)
    (now : Nat) :
    (event.mapContext mark).clock now = event.clock now := by
  cases event <;> rfl

theorem trace_mapContext [DecidableEq κ] {δ : Type} (mark : γ → δ)
    (engine : Engine κ γ) (now : Nat) (events : List (Event κ γ)) :
    (engine.mapContext mark).trace now (events.map (.mapContext mark)) =
      (engine.trace now events).map (.mapContext mark) := by
  induction events generalizing engine now with
  | nil => rfl
  | cons event events ih =>
      rw [List.map_cons, trace, trace, List.map_cons, ← ih, perform_mapContext,
        Event.clock_mapContext]
      rfl

theorem numbered_mapContext (start : Nat) (events : List (Event κ γ)) :
    (numbered start events).map (.mapContext Prod.snd) = events := by
  induction events generalizing start with
  | nil => rfl
  | cons event events ih =>
      rw [numbered, List.map_cons, ih]
      cases event <;> rfl

theorem number_of_admitted {start : Nat} {event : Event κ γ}
    {resolution? : Option (Except Error (Resolution (Nat × γ)))}
    {request : Request κ (Nat × γ)}
    (hrequest : request ∈ (event.mapContext (start, ·)).admitted resolution?) :
    request.waiter.context.1 = start := by
  cases event with
  | resolve question caller context flags =>
      rcases resolution? with - | error | ⟨answer, back⟩ | -
      · cases hrequest
      · cases hrequest
      · cases hrequest
      · obtain rfl := List.mem_singleton.mp hrequest
        rfl
  | _ => cases hrequest

end Numbers

section Views

variable [DecidableEq κ] (caller : κ) (numbers : List Nat)

def isTaken (waiter : Waiter κ (Nat × γ)) : Bool :=
  waiter.caller = caller ∧ waiter.context.1 ∈ numbers

/-- The view that hides the requests that a caller has taken back. -/
def unlessTaken (other : κ) (context : Nat × γ) : Option (Nat × γ) :=
  if isTaken caller numbers ⟨other, context⟩ then none else some context

theorem project?_unlessTaken (waiter : Waiter κ (Nat × γ)) :
    waiter.project? (unlessTaken caller numbers) =
      if isTaken caller numbers waiter then none else some waiter := by
  rw [Waiter.project?, unlessTaken]
  split <;> rfl

theorem filterMap_hiding {α : Type} {shown? : α → Option α}
    {hidden : α → Bool}
    (hshown : ∀ item, shown? item = if hidden item then none else some item)
    (items : List α) :
    items.filterMap shown? = items.filter fun item => !hidden item := by
  rw [← List.filterMap_eq_filter]
  apply List.filterMap_congr
  intro item hitem
  rw [hshown]
  cases hhidden : hidden item <;> simp [Option.guard, hhidden]

theorem filterMap_waiters (waiters : List (Waiter κ (Nat × γ))) :
    waiters.filterMap (Waiter.project? (unlessTaken caller numbers)) =
      waiters.filter fun waiter => !isTaken caller numbers waiter :=
  filterMap_hiding (project?_unlessTaken caller numbers) waiters

theorem filterMap_deliveries (deliveries : List (Delivery κ (Nat × γ))) :
    deliveries.filterMap (Delivery.project? (unlessTaken caller numbers)) =
      deliveries.filter fun delivery =>
        !isTaken caller numbers delivery.waiter := by
  refine filterMap_hiding (fun delivery => ?_) deliveries
  rw [Delivery.project?, project?_unlessTaken]
  split <;> rfl

theorem filter_others (deliveries : List (Delivery κ (Nat × γ))) :
    ((deliveries.filter fun delivery =>
      !isTaken caller numbers delivery.waiter).filter
        fun delivery => delivery.waiter.caller ≠ caller) =
      deliveries.filter fun delivery => delivery.waiter.caller ≠ caller := by
  rw [List.filter_filter]
  apply List.filter_congr
  intro delivery hdelivery
  by_cases hcaller : delivery.waiter.caller = caller <;> simp [isTaken, hcaller]

/-- To take requests back is to hide them. -/
theorem cancel_eq_project (engine : Engine κ (Nat × γ)) :
    (engine.cancel caller).1 =
      engine.project
        (unlessTaken caller ((engine.cancel caller).2.map fun waiter =>
          waiter.context.1)) := by
  have hentry : ∀ entry ∈ engine.inFlight,
      { entry with
        waiters := entry.waiters.filter fun waiter => waiter.caller ≠ caller } =
        entry.project
          (unlessTaken caller ((engine.cancel caller).2.map fun waiter =>
            waiter.context.1)) := by
    intro entry hentry
    rw [InFlight.project, filterMap_waiters]
    congr 1
    apply List.filter_congr
    intro waiter hwaiter
    by_cases hcaller : waiter.caller = caller
    -- A request of the caller that waits has its number among those that were
    -- taken back.
    · have hmem : waiter ∈ (engine.cancel caller).2 :=
        List.mem_flatMap.mpr
          ⟨entry, hentry, List.mem_filter.mpr ⟨hwaiter, by simpa using hcaller⟩⟩
      have htaken : isTaken caller
          ((engine.cancel caller).2.map fun waiter => waiter.context.1)
          waiter = true :=
        decide_eq_true ⟨hcaller, List.mem_map_of_mem hmem⟩
      rw [htaken, Bool.not_true]
      simpa using hcaller
    · simp [isTaken, hcaller]
  rw [project, ← List.map_congr_left hentry]
  rfl

theorem numbered_shownBy {start : Nat}
    (hnumbers : ∀ number ∈ numbers, number < start)
    (events : List (Event κ γ)) :
    ∀ event ∈ numbered start events,
      event.ShownBy (unlessTaken caller numbers) id := by
  induction events generalizing start with
  | nil => exact fun event hevent => absurd hevent List.not_mem_nil
  | cons event events ih =>
      refine List.forall_mem_cons.mpr ⟨?_, ih fun number hnumber =>
        Nat.lt_succ_of_lt (hnumbers number hnumber)⟩
      have hlater : start ∉ numbers :=
        fun hmem => Nat.lt_irrefl start (hnumbers start hmem)
      cases event with
      | resolve question other context flags =>
          simp [Event.mapContext, Event.ShownBy, unlessTaken, isTaken, hlater]
      | _ => trivial

end Views

structure Step.Cancels [DecidableEq κ] (caller : κ) (step : Step κ γ) :
    Prop where
  event : step.event = .cancel caller
  exchanges : step.after.exchanges = step.before.exchanges
  cache : step.after.cache = step.before.cache
  inFlight :
    step.after.inFlight.map InFlight.question =
      step.before.inFlight.map InFlight.question
  deliveries : step.effect.deliveries = []
  withdrawn : step.effect.withdrawn =
    (step.before.parked.filter fun request => request.waiter.caller =
      caller).map Request.waiter

/-- Two steps of two runs, of which the other lacks requests that a caller has
taken back. What the engine sends, keeps and gives at once is the same, and so
are the answers for all other requests. -/
structure Step.Agrees [DecidableEq κ] (caller : κ) (numbers : List Nat)
    (step other : Step κ (Nat × γ)) : Prop where
  now : other.now = step.now
  event : other.event = step.event
  launched : other.launched = step.launched
  cache : other.after.cache = step.after.cache
  inFlight :
    other.after.inFlight.map InFlight.question =
      step.after.inFlight.map InFlight.question
  resolution? : other.effect.resolution? = step.effect.resolution?
  found? : other.effect.found? = step.effect.found?
  withdrawn : other.effect.withdrawn =
    step.effect.withdrawn.filter fun waiter => !isTaken caller numbers waiter
  deliveries : other.effect.deliveries =
    step.effect.deliveries.filter fun delivery =>
      !isTaken caller numbers delivery.waiter
  others :
    (other.effect.deliveries.filter fun delivery =>
      delivery.waiter.caller ≠ caller) =
    step.effect.deliveries.filter fun delivery =>
      delivery.waiter.caller ≠ caller

section Runs

variable [DecidableEq κ] {caller : κ} {numbers : List Nat}

theorem cancels (engine : Engine κ γ) (now : Nat) (caller : κ) :
    Step.Cancels caller
      ⟨engine, now, .cancel caller, engine.perform now (.cancel caller)⟩ where
  event := rfl
  exchanges := rfl
  cache := rfl
  inFlight := by
    simp [Step.after, perform, cancel, Function.comp_def]
  deliveries := rfl
  withdrawn := (perform_move engine now (.cancel caller)).withdrawn_eq

/-- An engine makes the same step without the requests that were taken back. -/
theorem perform_agrees (engine : Engine κ (Nat × γ)) (now : Nat)
    {event : Event κ (Nat × γ)}
    (hshown : event.ShownBy (unlessTaken caller numbers) id) :
    let view := unlessTaken caller numbers
    let effect := engine.perform now event
    let other := (engine.project view).perform now event
    other.engine = effect.engine.project view ∧
      Step.Agrees caller numbers ⟨engine, now, event, effect⟩
        ⟨engine.project view, now, event, other⟩ := by
  intro view effect other
  have hevent : event.mapContext id = event := by cases event <;> rfl
  have hother : other = effect.project view id := by
    rw [← perform_project engine now hshown, hevent]
  have hresolution
      (resolution? : Option (Except Error (Resolution (Nat × γ)))) :
      resolution?.map (.map (.mapContext id)) = resolution? := by
    rcases resolution? with - | error | ⟨answer, back⟩ | - <;> rfl
  have hdeliveries := filterMap_deliveries caller numbers effect.deliveries
  refine ⟨congrArg Effect.engine hother, ?_⟩
  rw [hother]
  exact {
    now := rfl
    event := rfl
    launched := rfl
    cache := rfl
    inFlight := by
      simp [Step.after, Effect.project, project, InFlight.project,
        Function.comp_def]
    resolution? := hresolution effect.resolution?
    found? := rfl
    withdrawn := filterMap_waiters caller numbers effect.withdrawn
    deliveries := hdeliveries
    others := (congrArg (List.filter _) hdeliveries).trans
      (filter_others caller numbers effect.deliveries) }

theorem trace_agrees {events : List (Event κ (Nat × γ))}
    (hshown : ∀ event ∈ events, event.ShownBy (unlessTaken caller numbers) id)
    (engine : Engine κ (Nat × γ)) (now : Nat) :
    List.Forall₂ (Step.Agrees caller numbers) (engine.trace now events)
      ((engine.project (unlessTaken caller numbers)).trace now events) := by
  induction events generalizing engine now with
  | nil => exact .nil
  | cons event events ih =>
      obtain ⟨hevent, hevents⟩ := List.forall_mem_cons.mp hshown
      obtain ⟨hengine, hagrees⟩ := perform_agrees engine now hevent
      refine .cons hagrees ?_
      simp only [hengine]
      exact ih hevents _ _

theorem parked_numbers {engine : Engine κ (Nat × γ)} {start : Nat}
    (harmed : engine.Armed)
    (hparked : ∀ request ∈ engine.parked, request.waiter.context.1 < start)
    (now : Nat) (event : Event κ γ) :
    let effect := engine.perform now (event.mapContext (start, ·))
    ∀ request ∈ effect.engine.parked, request.waiter.context.1 < start + 1 := by
  intro effect request hrequest
  have hperm :=
    (perform_move engine now (event.mapContext (start, ·))).parked_perm
      harmed.keyed
  have hmem :=
    hperm.mem_iff.mpr (List.mem_append_left _ (List.mem_append_left _ hrequest))
  rcases List.mem_append.mp hmem with hold | hadmitted
  · exact Nat.lt_succ_of_lt (hparked request hold)
  · rw [number_of_admitted hadmitted]
    exact Nat.lt_succ_self start

def Step.takenNumbers (step : Step κ (Nat × γ)) : List Nat :=
  step.effect.withdrawn.map fun waiter => waiter.context.1

/-- Two runs that go the same way until one of them meets a cancellation, and
agree after it. -/
def PartAt (caller : κ) (length : Nat)
    (steps others : List (Step κ (Nat × γ))) : Prop :=
  ∃ past cancelled rest rest', steps = past ++ rest ∧
    others = past ++ cancelled :: rest' ∧
    past.length = length ∧ cancelled.Cancels caller ∧
    List.Forall₂ (Step.Agrees caller cancelled.takenNumbers) rest rest'

theorem partAt_cancel (caller : κ) (before after : List (Event κ γ))
    (start : Nat) {engine : Engine κ (Nat × γ)} (harmed : engine.Armed)
    (hparked : ∀ request ∈ engine.parked, request.waiter.context.1 < start)
    (now : Nat) :
    PartAt caller before.length
      (engine.trace now
        (numbered start before ++ numbered (start + before.length) after))
      (engine.trace now
        (numbered start before ++ .cancel caller ::
          numbered (start + before.length) after)) := by
  induction before generalizing engine start now with
  | nil =>
      have hcancels := cancels engine now caller
      refine ⟨[], _, _, _, rfl, rfl, rfl, hcancels, ?_⟩
      -- What is taken back has been waiting, so no later request has its
      -- number.
      have hnumbers : ∀ number ∈ (engine.cancel caller).2.map fun waiter =>
        waiter.context.1, number < start := by
        intro number hnumber
        obtain ⟨waiter, hwaiter, rfl⟩ := List.mem_map.mp hnumber
        have hwithdrawn : (engine.cancel caller).2 = _ := hcancels.withdrawn
        rw [hwithdrawn] at hwaiter
        obtain ⟨request, hrequest, rfl⟩ := List.mem_map.mp hwaiter
        exact hparked request (List.mem_filter.mp hrequest).1
      have hshown := numbered_shownBy caller _ hnumbers after
      have hagrees := trace_agrees hshown engine now
      rw [← cancel_eq_project] at hagrees
      exact hagrees
  | cons event before ih =>
      have hstart : start + (event :: before).length =
          start + 1 + before.length := by
        rw [List.length_cons]
        omega
      let step : Step κ (Nat × γ) :=
        ⟨engine, now, event.mapContext (start, ·),
          engine.perform now (event.mapContext (start, ·))⟩
      have hmove := perform_move engine now (event.mapContext (start, ·))
      obtain ⟨past, cancelled, rest, rest', hsteps, hothers, hlength,
        hcancels, hagrees⟩ :=
        ih (start + 1) (harmed.move hmove)
          (parked_numbers harmed hparked now event)
          ((event.mapContext (start, ·)).clock now)
      refine ⟨step :: past, cancelled, rest, rest', ?_, ?_,
        congrArg Nat.succ hlength, hcancels, hagrees⟩
      · rw [hstart, numbered, List.cons_append, trace, hsteps]
        rfl
      · rw [hstart, numbered, List.cons_append, trace, hothers]
        rfl

/-- A run with a cancellation goes as the run without it. Up to the cancellation
both make the same steps; the cancellation takes back what waits for the caller,
and sends and answers nothing; and each step after it sends the same queries,
keeps and gives at once the same answers, has the same questions under way and
hands the same answers to the same requests, except to those that were taken
back. The numbers that tell the requests apart change nothing in either run. -/
theorem cancellation_is_invisible (settings : Settings) (ids : Nat → UInt16)
    (before after : List (Event κ γ)) (caller : κ) :
    let first := numbered 0 before
    let last := numbered before.length after
    let steps := trace (.create settings ids) 0 (first ++ last)
    let others :=
      trace (.create settings ids) 0 (first ++ .cancel caller :: last)
    steps.map (.mapContext Prod.snd) =
    trace (.create settings ids) 0 (before ++ after) ∧
      others.map (.mapContext Prod.snd) =
        trace (.create settings ids) 0 (before ++ .cancel caller :: after) ∧
      PartAt caller before.length steps others := by
  intro first last steps others
  refine ⟨?_, ?_, ?_⟩
  · rw [← trace_mapContext, List.map_append, numbered_mapContext,
      numbered_mapContext]
    rfl
  · rw [← trace_mapContext, List.map_append, List.map_cons, numbered_mapContext,
      numbered_mapContext]
    rfl
  · have hparted := partAt_cancel caller before after 0
      (create_armed settings ids : Armed (.create settings ids))
      (by simp [parked, create]) 0
    rwa [Nat.zero_add] at hparted

end Runs

end DnsForwarder.Engine
