import DnsForwarder.Proofs.Engine.Run

/-! An engine carries the contexts of its callers and never reads them, and no
request changes what it does for another. With other contexts in their places,
or without some of the requests that wait, it does the same. Contexts may
therefore be marked to tell requests apart. -/

namespace DnsForwarder

variable {κ γ δ : Type}

def Waiter.mapContext (mark : γ → δ) (waiter : Waiter κ γ) : Waiter κ δ :=
  ⟨waiter.caller, mark waiter.context⟩

def Delivery.mapContext (mark : γ → δ) (delivery : Delivery κ γ) :
    Delivery κ δ :=
  ⟨delivery.waiter.mapContext mark, delivery.answer⟩

def Resolution.mapContext (mark : γ → δ) : Resolution γ → Resolution δ
  | .ready answer context => .ready answer (mark context)
  | .pending => .pending

def InFlight.mapContext (mark : γ → δ) (entry : InFlight κ γ) : InFlight κ δ :=
  { entry with waiters := entry.waiters.map (.mapContext mark) }

section Views

/-! A view shows some of the requests that wait, perhaps with other contexts,
and hides the rest. -/

variable (view : κ → γ → Option δ)

def Waiter.project? (waiter : Waiter κ γ) : Option (Waiter κ δ) :=
  (view waiter.caller waiter.context).map (Waiter.mk waiter.caller)

def Delivery.project? (delivery : Delivery κ γ) : Option (Delivery κ δ) :=
  (delivery.waiter.project? view).map fun waiter => ⟨waiter, delivery.answer⟩

def InFlight.project (entry : InFlight κ γ) : InFlight κ δ :=
  { entry with waiters := entry.waiters.filterMap (Waiter.project? view) }

theorem Waiter.project?_some (mark : γ → δ) :
    Waiter.project? (κ := κ) (fun _ context => some (mark context)) =
      some ∘ Waiter.mapContext mark := rfl

theorem Delivery.project?_some (mark : γ → δ) :
    Delivery.project? (κ := κ) (fun _ context => some (mark context)) =
      some ∘ Delivery.mapContext mark := rfl

theorem InFlight.project_some (mark : γ → δ) :
    InFlight.project (κ := κ) (fun _ context => some (mark context)) =
      InFlight.mapContext mark := by
  funext entry
  rw [project, Waiter.project?_some, List.filterMap_eq_map, mapContext]

end Views

namespace Engine

def mapContext (mark : γ → δ) (engine : Engine κ γ) : Engine κ δ :=
  { engine with inFlight := engine.inFlight.map (.mapContext mark) }

def Event.mapContext (mark : γ → δ) : Event κ γ → Event κ δ
  | .wait ms => .wait ms
  | .start => .start
  | .resolve question caller context flags =>
      .resolve question caller (mark context) flags
  | .lookup question => .lookup question
  | .cancel caller => .cancel caller
  | .ended question generation ending => .ended question generation ending
  | .stop => .stop

def Effect.mapContext (mark : γ → δ) (effect : Effect κ γ) : Effect κ δ where
  engine := effect.engine.mapContext mark
  resolution? := effect.resolution?.map (.map (.mapContext mark))
  found? := effect.found?
  withdrawn := effect.withdrawn.map (.mapContext mark)
  deliveries := effect.deliveries.map (.mapContext mark)

def project (view : κ → γ → Option δ) (engine : Engine κ γ) : Engine κ δ :=
  { engine with inFlight := engine.inFlight.map (.project view) }

def Effect.project (view : κ → γ → Option δ) (mark : γ → δ)
    (effect : Effect κ γ) :
    Effect κ δ where
  engine := effect.engine.project view
  resolution? := effect.resolution?.map (.map (.mapContext mark))
  found? := effect.found?
  withdrawn := effect.withdrawn.filterMap (Waiter.project? view)
  deliveries := effect.deliveries.filterMap (Delivery.project? view)

def Event.ShownBy (view : κ → γ → Option δ) (mark : γ → δ) : Event κ γ → Prop
  | .resolve _ caller context _ => view caller context = some (mark context)
  | _ => True

theorem project_some (mark : γ → δ) :
    project (κ := κ) (fun _ context => some (mark context)) =
      mapContext mark := by
  funext engine
  rw [project, InFlight.project_some, mapContext]

theorem Effect.project_some (mark : γ → δ) :
    Effect.project (κ := κ) (fun _ context => some (mark context)) mark =
      Effect.mapContext mark := by
  funext effect
  rw [Effect.project, Engine.project_some, Waiter.project?_some,
    Delivery.project?_some,
    List.filterMap_eq_map, List.filterMap_eq_map, mapContext]

section Projection

variable (view : κ → γ → Option δ) (engine : Engine κ γ) (entry : InFlight κ γ)
  (question : Question) (now generation : Nat)

theorem entry?_project :
    Engine.entry? (engine.project view) question =
      (engine.entry? question).map (.project view) := by
  rw [Engine.entry?, project, List.find?_map]
  rfl

theorem current?_project :
    (engine.project view).current? question generation =
      (engine.current? question generation).map (.project view) := by
  rw [current?, entry?_project, Option.filter_map]
  rfl

theorem putEntry_project :
    (engine.project view).putEntry (entry.project view) =
      (engine.putEntry entry).project view := by
  have hfound :
      Engine.entry? (engine.project view) (entry.project view).question =
      (engine.entry? entry.question).map (.project view) :=
    entry?_project view engine entry.question
  cases hentry : engine.entry? entry.question with
  | none =>
      rw [putEntry, if_neg (by simp [hfound, hentry]), putEntry,
        if_neg (by simp [hentry])]
      simp [project]
  | some old =>
      have hmap : (engine.inFlight.map (.project view)).map (fun old =>
          if old.question == (entry.project view).question then
            entry.project view
          else old) =
          (engine.inFlight.map fun old =>
            if old.question == entry.question then entry else old).map
              (.project view) := by
        rw [List.map_map, List.map_map]
        apply List.map_congr_left
        intro other hother
        by_cases hsame : other.question = entry.question <;>
          simp [InFlight.project, hsame]
      rw [putEntry, if_pos (by simp [hfound, hentry]), putEntry,
        if_pos (by simp [hentry])]
      simp only [project, hmap]

theorem launch_project :
    (engine.project view).launch now (entry.project view) =
      (engine.launch now entry).project view := by
  have hput :
      ((engine.project view).retire (entry.project view).generation).putEntry
      { entry.project view with
        generation :=
          ((engine.project view).retire
              (entry.project view).generation).generations + 1 } =
      ((engine.retire entry.generation).putEntry
        { entry with generation := engine.generations + 1 }).project view :=
    putEntry_project view (engine.retire entry.generation)
      { entry with generation := engine.generations + 1 }
  rw [launch, hput]
  rfl

theorem dropEntry_project :
    (engine.project view).dropEntry question =
      (engine.dropEntry question).project view := by
  simp [dropEntry, project, List.filter_map, Function.comp_def,
    InFlight.project]

theorem deliveries_project (answer : Answer) :
    deliveries (entry.project view).waiters answer =
      (deliveries entry.waiters answer).filterMap (Delivery.project? view) := by
  rw [deliveries, deliveries, List.filterMap_map, InFlight.project,
    List.map_filterMap]
  rfl

theorem proceed_project (sequel : Sequel) :
    (engine.project view).proceed now (entry.project view) sequel =
      ((engine.proceed now entry sequel).1.project view,
        (engine.proceed now entry sequel).2.filterMap
          (Delivery.project? view)) := by
  cases sequel with
  | again server protocol retriesDone =>
      have hlaunch :=
        launch_project view engine
          { entry with server, protocol, retriesDone } now
      exact congrArg (·, []) hlaunch
  | answered answer =>
      have hdrop :
          ((engine.project view).retire
            (entry.project view).generation).dropEntry
          (entry.project view).question =
          ((engine.retire entry.generation).dropEntry entry.question).project
          view :=
        dropEntry_project view (engine.retire entry.generation) entry.question
      simp only [proceed, settle, hdrop, deliveries_project]
      rfl

theorem onEnd_project (ending : AttemptEnd) :
    (engine.project view).onEnd now question generation ending =
      ((engine.onEnd now question generation ending).1.project view,
        (engine.onEnd now question generation ending).2.filterMap
          (Delivery.project? view)) := by
  have hcurrent := current?_project view engine question generation
  cases hentry : engine.current? question generation with
  | none =>
      rw [hentry] at hcurrent
      rw [onEnd_of_stale hcurrent, onEnd_of_stale hentry]
      rfl
  | some entry =>
      rw [hentry] at hcurrent
      rw [onEnd_of_current hcurrent, onEnd_of_current hentry]
      exact proceed_project view (engine.afterEnd generation ending) entry now _

theorem stop_project :
    (engine.project view).stop =
      (engine.stop.1.project view,
        engine.stop.2.filterMap (Delivery.project? view)) := by
  simp only [stop, project, List.filterMap_flatMap, List.flatMap_map,
    deliveries_project]
  rfl

theorem filter_project (waiters : List (Waiter κ γ)) (keep : κ → Bool) :
    (waiters.filterMap (Waiter.project? view)).filter
      (fun waiter => keep waiter.caller) =
      (waiters.filter fun waiter => keep waiter.caller).filterMap
        (Waiter.project? view) := by
  rw [List.filter_filterMap, List.filterMap_filter]
  apply List.filterMap_congr
  intro waiter hwaiter
  cases hview : view waiter.caller waiter.context <;>
    cases hkeep : keep waiter.caller <;>
      simp [Waiter.project?, hview, hkeep, Option.filter]

theorem cancel_project [DecidableEq κ] (caller : κ) :
    (engine.project view).cancel caller =
      ((engine.cancel caller).1.project view,
        (engine.cancel caller).2.filterMap (Waiter.project? view)) := by
  simp only [cancel, project, List.filterMap_flatMap, List.flatMap_map,
    List.map_map,
    Function.comp_def, InFlight.project, filter_project view _ (· = caller),
    filter_project view _ (· ≠ caller)]

variable {view} {caller : κ} {context : γ} {mark : γ → δ}

theorem join_project (hshown : view caller context = some (mark context)) :
    (engine.project view).join (entry.project view) ⟨caller, mark context⟩ =
      (engine.join entry ⟨caller, context⟩).project view := by
  have hentry : { entry.project view with
      waiters := (entry.project view).waiters ++ [⟨caller, mark context⟩] } =
      InFlight.project view
        { entry with waiters := entry.waiters ++ [⟨caller, context⟩] } := by
    simp [InFlight.project, Waiter.project?, hshown]
  rw [join, hentry, putEntry_project]
  rfl

theorem openEntry_project (hshown : view caller context = some (mark context))
    (query : Octets) :
    (engine.project view).openEntry now question query ⟨caller, mark context⟩ =
      (engine.openEntry now question query ⟨caller, context⟩).project view := by
  have hentry :
      (engine.project view).newEntry question query ⟨caller, mark context⟩ =
      (engine.newEntry question query ⟨caller, context⟩).project view := by
    simp only [newEntry, InFlight.project, List.filterMap_cons,
      Waiter.project?, hshown]
    rfl
  rw [openEntry_eq, hentry, openEntry_eq]
  exact launch_project view engine.turned
    (engine.newEntry question query ⟨caller, context⟩) now

theorem resolveUncached_project
    (hshown : view caller context = some (mark context)) (flags : Flags) :
    (engine.project view).resolveUncached now question
      ⟨caller, mark context⟩ flags =
      ((engine.resolveUncached now question ⟨caller, context⟩ flags).1.project
        view,
        (engine.resolveUncached now question ⟨caller, context⟩ flags).2.map
          (.mapContext mark)) := by
  have hfound := entry?_project view engine question
  by_cases hcacheOnly : flags.cacheOnly
  · simp only [resolveUncached, hcacheOnly, if_true]
    rfl
  · simp only [resolveUncached, hcacheOnly, Bool.false_eq_true,
      if_false, hfound]
    cases hentry : engine.entry? question with
    | some entry =>
        simp only [Option.map_some, join_project engine entry hshown]
        rfl
    | none =>
        have hids :
            (engine.project view).ids ((engine.project view).generations + 1) =
            engine.ids (engine.generations + 1) := rfl
        simp only [Option.map_none, hids]
        cases Message.buildQuery question
          (engine.ids (engine.generations + 1)) with
        | error error => rfl
        | ok query =>
            simp only [openEntry_project engine question now hshown]
            rfl

theorem lookup_project :
    (engine.project view).lookup now question =
      ((engine.lookup now question).1.project view,
        (engine.lookup now question).2) := by
  have hget : (engine.project view).cache.get now question =
      engine.cache.get now question := rfl
  simp only [lookup, hget]
  cases (engine.cache.get now question).2 <;> rfl

theorem resolve_project (hshown : view caller context = some (mark context))
    (flags : Flags) :
    (engine.project view).resolve now question caller (mark context) flags =
      ((engine.resolve now question caller context flags).1.project view,
        (engine.resolve now question caller context flags).2.map
          (.mapContext mark)) := by
  have hstarted : (engine.project view).started = engine.started := rfl
  have huncached (engine : Engine κ γ) :=
    resolveUncached_project engine question now hshown flags
  simp only [resolve, hstarted]
  cases engine.started with
  | false => rfl
  | true =>
      cases flags.bypassCache with
      | true => exact huncached engine
      | false =>
          simp only [lookup_project, Bool.not_true,
            Bool.false_eq_true, if_false]
          obtain ⟨after, found?⟩ := engine.lookup now question
          cases found? with
          | some answer => rfl
          | none => exact huncached after

/-- An engine does the same for those whose requests are shown, whatever else
waits. -/
theorem perform_project [DecidableEq κ] {event : Event κ γ}
    (hshown : event.ShownBy view mark) :
    (engine.project view).perform now (event.mapContext mark) =
      (engine.perform now event).project view mark := by
  cases event with
  | wait ms => rfl
  | start =>
      by_cases hservers : engine.settings.servers = []
      · have hservers' : (engine.project view).settings.servers = [] := hservers
        simp only [perform, Event.mapContext, start, hservers,
          hservers', if_true]
        rfl
      · have hservers' : (engine.project view).settings.servers ≠ [] := hservers
        simp only [perform, Event.mapContext, start, hservers,
          hservers', if_false]
        rfl
  | resolve question caller context flags =>
      simp only [perform, Event.mapContext,
        resolve_project engine question now hshown]
      rfl
  | lookup question =>
      simp only [perform, Event.mapContext, lookup_project]
      rfl
  | cancel caller =>
      simp only [perform, Event.mapContext, cancel_project]
      rfl
  | ended question generation ending =>
      simp only [perform, Event.mapContext, onEnd_project]
      rfl
  | stop =>
      simp only [perform, Event.mapContext, stop_project]
      rfl

end Projection

section Marks

variable (mark : γ → δ) (engine : Engine κ γ) (question : Question) (now : Nat)

theorem entry?_mapContext :
    Engine.entry? (engine.mapContext mark) question =
      (engine.entry? question).map (.mapContext mark) := by
  rw [← project_some, entry?_project, InFlight.project_some]

theorem resolve_mapContext (caller : κ) (context : γ) (flags : Flags) :
    (engine.mapContext mark).resolve now question caller (mark context) flags =
      ((engine.resolve now question caller context flags).1.mapContext mark,
        (engine.resolve now question caller context flags).2.map
          (.mapContext mark)) := by
  rw [← project_some]
  exact resolve_project engine question now rfl flags

/-- An engine does the same whatever the contexts are. -/
theorem perform_mapContext [DecidableEq κ] (event : Event κ γ) :
    (engine.mapContext mark).perform now (event.mapContext mark) =
      (engine.perform now event).mapContext mark := by
  have hshown : event.ShownBy (fun _ context => some (mark context)) mark := by
    cases event with
    | resolve question caller context flags => rfl
    | _ => trivial
  rw [← project_some, ← Effect.project_some]
  exact perform_project engine now hshown

end Marks

end Engine

end DnsForwarder
