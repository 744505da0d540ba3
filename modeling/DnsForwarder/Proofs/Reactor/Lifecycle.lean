import DnsForwarder.Reactor.Basic
import Mathlib.Data.List.Induction
import Mathlib.Data.List.Nodup

/-! The components of a reactor over any row of its calls. The numbers of
successful starts are consecutive; a component is kept from its start until its
number is given back, and gets one stop for each start: then, or when the
reactor stops all that it has left. -/

namespace DnsForwarder

namespace Reactor

variable {ρ σ : Type}

section Load

variable {reactor : Reactor ρ} {runnable : ρ} {start : σ → Except Error σ}
  {state after : σ}

def loaded (reactor : Reactor ρ) (runnable : ρ) : Reactor ρ :=
  { reactor with
    runnables := reactor.runnables ++ [(reactor.nextId, runnable)]
    nextId := reactor.nextId + 1 }

theorem load_of_stopping (hstopping : reactor.stopping) :
    reactor.load runnable start state =
      (reactor, state, .error (.dispatcherStopped reactor.name)) :=
  if_pos hstopping

theorem load_of_failed {error : Error} (hopen : reactor.stopping = false)
    (hstart : start state = .error error) :
    reactor.load runnable start state = (reactor, state, .error error) := by
  rw [load, hopen, hstart]
  rfl

theorem load_of_started (hopen : reactor.stopping = false)
    (hstart : start state = .ok after) :
    reactor.load runnable start state =
      (reactor.loaded runnable, after, .ok reactor.nextId) := by
  simp only [load, hopen, hstart, Bool.false_eq_true, if_false, loaded]

end Load

/-- A call of a reactor. A component need not start in the same way each
time. -/
inductive Call (ρ σ : Type) where
  | load (runnable : ρ) (start : σ → Except Error σ)
  | unload (id : Nat)
  | stop

inductive Reply where
  | load (result : Except Error Nat)
  | unload (found : Bool)
  | stop

theorem lookup_eq_some_iff_mem {α β : Type} [BEq α] [LawfulBEq α]
    {entries : List (α × β)} (hnodup : (entries.map Prod.fst).Nodup) {key : α}
    {value : β} :
    entries.lookup key = some value ↔ (key, value) ∈ entries := by
  rw [List.lookup_eq_some_iff]
  constructor
  · rintro ⟨front, back, rfl, -⟩
    exact List.mem_append_right _ List.mem_cons_self
  · intro hmem
    obtain ⟨front, back, rfl⟩ := List.append_of_mem hmem
    rw [List.map_append, List.map_cons, List.nodup_middle, List.nodup_cons,
      ← List.map_append] at hnodup
    refine ⟨front, back, rfl, fun entry hfront =>
      bne_iff_ne.mpr fun hsame => ?_⟩
    exact hnodup.1
      (List.mem_map.mpr ⟨entry, List.mem_append_left _ hfront, hsame.symm⟩)

def noting (stop : ρ → σ → σ) (runnable : ρ) (state : σ × List ρ) :
    σ × List ρ :=
  (stop runnable state.1, state.2 ++ [runnable])

def beside (start : σ → Except Error σ) (state : σ × List ρ) :
    Except Error (σ × List ρ) :=
  (start state.1).map fun after => (after, state.2)

/-- Writing down what is stopped does not change what is stopped; the last comes
first. -/
theorem unloadAll_noting (reactor : Reactor ρ) (stop : ρ → σ → σ) (state : σ)
    (stopped : List ρ) :
    reactor.unloadAll (noting stop) (state, stopped) =
      ((reactor.unloadAll stop state).1, (reactor.unloadAll stop state).2,
        stopped ++ (reactor.runnables.map Prod.snd).reverse) := by
  obtain ⟨name, runnables, nextId, stopping⟩ := reactor
  simp only [unloadAll, Prod.mk.injEq, true_and]
  induction runnables with
  | nil => simp
  | cons loaded rest ih =>
      rw [List.foldr_cons, ih]
      simp [noting]

/-- A reactor with the state of its components, and what an observer has seen of
both. -/
structure Story (ρ σ : Type) where
  reactor : Reactor ρ
  state : σ
  stopped : List ρ := []
  replies : List (Call ρ σ × Reply) := []

def startOf? : Call ρ σ × Reply → Option ρ
  | (.load runnable _, .load (.ok _)) => some runnable
  | _ => none

def numberOf? : Call ρ σ × Reply → Option Nat
  | (.load _ _, .load (.ok id)) => some id
  | _ => none

def returnOf? : Call ρ σ × Reply → Option Nat
  | (.unload id, .unload true) => some id
  | _ => none

namespace Story

def started (story : Story ρ σ) : List ρ :=
  story.replies.filterMap startOf?

def numbers (story : Story ρ σ) : List Nat :=
  story.replies.filterMap numberOf?

def returned (story : Story ρ σ) : List Nat :=
  story.replies.filterMap returnOf?

/-- The starts whose numbers have not been given back, each behind its
number. -/
def kept (story : Story ρ σ) : List (Nat × ρ) :=
  (story.started.zipIdx.filter fun start =>
    start.2 ∉ story.returned).map Prod.swap

def create (name : String) (state : σ) : Story ρ σ :=
  { reactor := .create name, state }

def next (stop : ρ → σ → σ) (story : Story ρ σ) (call : Call ρ σ) : Story ρ σ :=
  match call with
  | .load runnable start =>
      let (reactor, (state, stopped), result) :=
        story.reactor.load runnable (beside start) (story.state, story.stopped)
      ⟨reactor, state, stopped, story.replies ++ [(call, .load result)]⟩
  | .unload id =>
      let (reactor, (state, stopped), found) :=
        story.reactor.unload id (noting stop) (story.state, story.stopped)
      ⟨reactor, state, stopped, story.replies ++ [(call, .unload found)]⟩
  | .stop =>
      { story with
        reactor := story.reactor.stop
        replies := story.replies ++ [(call, .stop)] }

def run (name : String) (state : σ) (stop : ρ → σ → σ)
    (calls : List (Call ρ σ)) : Story ρ σ :=
  calls.foldl (next stop) (create name state)

def hear (story : Story ρ σ) (call : Call ρ σ) (reply : Reply) : Story ρ σ :=
  { story with replies := story.replies ++ [(call, reply)] }

def keep (story : Story ρ σ) (runnable : ρ) (start : σ → Except Error σ)
    (after : σ) :
    Story ρ σ where
  reactor := story.reactor.loaded runnable
  state := after
  stopped := story.stopped
  replies :=
    story.replies ++ [(.load runnable start, .load (.ok story.reactor.nextId))]

def giveBack (story : Story ρ σ) (stop : ρ → σ → σ) (id : Nat) (runnable : ρ) :
    Story ρ σ where
  reactor :=
    { story.reactor with
      runnables := story.reactor.runnables.filter fun loaded => loaded.1 != id }
  state := stop runnable story.state
  stopped := story.stopped ++ [runnable]
  replies := story.replies ++ [(.unload id, .unload true)]

inductive Turn (stop : ρ → σ → σ) (story : Story ρ σ) :
    Call ρ σ → Story ρ σ → Prop
  | refused (runnable : ρ) (start : σ → Except Error σ)
    (hstopping : story.reactor.stopping) :
      Turn stop story (.load runnable start)
        (story.hear (.load runnable start)
          (.load (.error (.dispatcherStopped story.reactor.name))))
  | failed (runnable : ρ) (start : σ → Except Error σ) (error : Error)
      (hopen : story.reactor.stopping = false)
      (hstart : start story.state = .error error) :
      Turn stop story (.load runnable start)
        (story.hear (.load runnable start) (.load (.error error)))
  | loaded (runnable : ρ) (start : σ → Except Error σ) (after : σ)
      (hopen : story.reactor.stopping = false)
      (hstart : start story.state = .ok after) :
      Turn stop story (.load runnable start) (story.keep runnable start after)
  | missing (id : Nat) (hmissing : story.reactor.find? id = none) :
      Turn stop story (.unload id) (story.hear (.unload id) (.unload false))
  | unloaded (id : Nat) (runnable : ρ)
    (hfound : story.reactor.find? id = some runnable) :
      Turn stop story (.unload id) (story.giveBack stop id runnable)
  | stop :
      Turn stop story .stop
        { story.hear .stop .stop with reactor := story.reactor.stop }

variable {stop : ρ → σ → σ} {name : String} {story after : Story ρ σ}
  {call : Call ρ σ}

theorem next_turn (stop : ρ → σ → σ) (story : Story ρ σ) (call : Call ρ σ) :
    Turn stop story call (story.next stop call) := by
  cases call with
  | load runnable start =>
      cases hstopping : story.reactor.stopping with
      | true =>
          rw [next, load_of_stopping hstopping]
          exact .refused runnable start hstopping
      | false =>
          cases hstart : start story.state with
          | error error =>
              have hbeside : beside start (story.state, story.stopped) =
                  .error error := by
                rw [beside, hstart]
                rfl
              rw [next, load_of_failed hstopping hbeside]
              exact .failed runnable start error hstopping hstart
          | ok after =>
              have hbeside : beside start (story.state, story.stopped) =
                  .ok (after, story.stopped) := by
                rw [beside, hstart]
                rfl
              rw [next, load_of_started hstopping hbeside]
              exact .loaded runnable start after hstopping hstart
  | unload id =>
      rw [next, unload]
      cases hfind : story.reactor.find? id with
      | none => exact .missing id hfind
      | some runnable => exact .unloaded id runnable hfind
  | stop => exact .stop

/-- What the replies say of the reactor, of what it keeps and of what it
stopped. -/
structure Sound (name : String) (story : Story ρ σ) : Prop where
  name_eq : story.reactor.name = name
  stopping_iff : story.reactor.stopping ↔ .stop ∈ story.replies.map Prod.fst
  numbers_eq : story.numbers = List.range story.started.length
  nextId_eq : story.reactor.nextId = story.started.length
  runnables_eq : story.reactor.runnables = story.kept
  nodup_returned : story.returned.Nodup
  returned_lt : ∀ id ∈ story.returned, id < story.started.length
  stopped_eq : story.stopped = story.returned.filterMap (story.started[·]?)

theorem mem_kept_iff {id : Nat} {runnable : ρ} :
    (id, runnable) ∈ story.kept ↔ id ∉ story.returned ∧ story.started[id]? =
      some runnable := by
  simp only [kept, List.mem_map, List.mem_filter, List.mem_zipIdx_iff_getElem?,
    Prod.exists, Prod.swap_prod_mk, Prod.mk.injEq, decide_eq_true_eq]
  constructor
  · rintro ⟨_, _, ⟨hget, hreturned⟩, rfl, rfl⟩
    exact ⟨hreturned, hget⟩
  · rintro ⟨hreturned, hget⟩
    exact ⟨runnable, id, ⟨hget, hreturned⟩, rfl, rfl⟩

theorem kept_numbers (story : Story ρ σ) :
    story.kept.map Prod.fst =
      (List.range story.started.length).filter fun id =>
        id ∉ story.returned := by
  rw [kept, List.map_map, List.range_eq_range', ← List.zipIdx_map_snd,
    List.filter_map]
  rfl

theorem lookup_kept (story : Story ρ σ) (id : Nat) :
    story.kept.lookup id =
      if id ∈ story.returned then none else story.started[id]? := by
  have hnodup : (story.kept.map Prod.fst).Nodup := by
    rw [kept_numbers]
    exact List.nodup_range.filter _
  apply Option.ext
  intro runnable
  rw [lookup_eq_some_iff_mem hnodup, mem_kept_iff]
  split
  next hreturned => simp [hreturned]
  next hreturned => simp [hreturned]

namespace Sound

theorem find?_eq (hsound : story.Sound name) (id : Nat) :
    story.reactor.find? id =
      if id ∈ story.returned then none else story.started[id]? := by
  rw [find?, hsound.runnables_eq, lookup_kept]

theorem create (name : String) (state : σ) :
    (create name state : Story ρ σ).Sound name where
  name_eq := rfl
  stopping_iff := by simp [Story.create, Reactor.create]
  numbers_eq := rfl
  nextId_eq := rfl
  runnables_eq := rfl
  nodup_returned := List.nodup_nil
  returned_lt := nofun
  stopped_eq := rfl

theorem hear {reply : Reply} {reactor : Reactor ρ} (hsound : story.Sound name)
    (hstart : startOf? (call, reply) = none)
    (hnumber : numberOf? (call, reply) = none)
    (hreturn : returnOf? (call, reply) = none)
    (hreactor : reactor = { story.reactor with stopping := reactor.stopping })
    (hstopping : reactor.stopping ↔ story.reactor.stopping ∨ .stop = call) :
    Sound name { story.hear call reply with reactor } := by
  have hstarted : (story.hear call reply).started = story.started := by
    simp [started, Story.hear, List.filterMap_append, hstart]
  have hnumbers : (story.hear call reply).numbers = story.numbers := by
    simp [numbers, Story.hear, List.filterMap_append, hnumber]
  have hreturned : (story.hear call reply).returned = story.returned := by
    simp [returned, Story.hear, List.filterMap_append, hreturn]
  have hkept : (story.hear call reply).kept = story.kept := by
    rw [kept, kept, hstarted, hreturned]
  constructor
  case name_eq => exact (congrArg Reactor.name hreactor).trans hsound.name_eq
  case stopping_iff => simp [Story.hear, hstopping, hsound.stopping_iff]
  case numbers_eq => exact hnumbers.trans (hstarted.symm ▸ hsound.numbers_eq)
  case nextId_eq =>
    exact (congrArg nextId hreactor).trans
      (hsound.nextId_eq.trans (congrArg List.length hstarted.symm))
  case runnables_eq =>
    exact (congrArg runnables hreactor).trans
      (hsound.runnables_eq.trans hkept.symm)
  case nodup_returned => exact hreturned.symm ▸ hsound.nodup_returned
  case returned_lt =>
    intro id hid
    exact hstarted.symm ▸ hsound.returned_lt id (hreturned ▸ hid)
  case stopped_eq =>
    exact hsound.stopped_eq.trans (hstarted.symm ▸ hreturned.symm ▸ rfl)

theorem keep {runnable : ρ} {start : σ → Except Error σ} {after : σ}
    (hsound : story.Sound name) :
    (story.keep runnable start after).Sound name := by
  have hstarted : (story.keep runnable start after).started =
      story.started ++ [runnable] := by
    simp [started, Story.keep, List.filterMap_append, startOf?]
  have hnumbers : (story.keep runnable start after).numbers =
      story.numbers ++ [story.reactor.nextId] := by
    simp [numbers, Story.keep, List.filterMap_append, numberOf?]
  have hreturned : (story.keep runnable start after).returned =
      story.returned := by
    simp [returned, Story.keep, List.filterMap_append, returnOf?]
  have hnew : story.started.length ∉ story.returned := fun hmem =>
    Nat.lt_irrefl _ (hsound.returned_lt _ hmem)
  have hkept : (story.keep runnable start after).kept =
      story.kept ++ [(story.started.length, runnable)] := by
    simp [kept, hstarted, hreturned, List.zipIdx_append,
      List.filter_append, hnew]
  constructor
  case name_eq => exact hsound.name_eq
  case stopping_iff => simp [Story.keep, loaded, hsound.stopping_iff]
  case numbers_eq =>
    rw [hnumbers, hstarted, hsound.numbers_eq, hsound.nextId_eq,
      List.length_append, List.length_singleton, List.range_succ]
  case nextId_eq =>
    rw [hstarted, List.length_append, ← hsound.nextId_eq]
    rfl
  case runnables_eq =>
    rw [hkept, ← hsound.runnables_eq, ← hsound.nextId_eq]
    rfl
  case nodup_returned => exact hreturned ▸ hsound.nodup_returned
  case returned_lt =>
    intro id hid
    rw [hstarted, List.length_append]
    exact Nat.lt_add_right _ (hsound.returned_lt id (hreturned ▸ hid))
  case stopped_eq =>
    rw [hreturned, hstarted]
    refine hsound.stopped_eq.trans (List.filterMap_congr fun id hid => ?_)
    rw [List.getElem?_append_left (hsound.returned_lt id hid)]

theorem giveBack {id : Nat} {runnable : ρ} (hsound : story.Sound name)
    (hfound : story.reactor.find? id = some runnable) :
    (story.giveBack stop id runnable).Sound name := by
  rw [hsound.find?_eq] at hfound
  obtain ⟨hfresh, hget⟩ := Option.ite_none_left_eq_some.mp hfound
  have hstarted : (story.giveBack stop id runnable).started =
      story.started := by
    simp [started, Story.giveBack, List.filterMap_append, startOf?]
  have hnumbers : (story.giveBack stop id runnable).numbers =
      story.numbers := by
    simp [numbers, Story.giveBack, List.filterMap_append, numberOf?]
  have hreturned : (story.giveBack stop id runnable).returned =
      story.returned ++ [id] := by
    simp [returned, Story.giveBack, List.filterMap_append, returnOf?]
  have hkept : (story.giveBack stop id runnable).kept =
      story.kept.filter fun loaded => loaded.1 != id := by
    rw [kept, kept, hstarted, hreturned, List.filter_map, List.filter_filter]
    refine congrArg _ (List.filter_congr fun start _ => ?_)
    rw [Bool.eq_iff_iff]
    simp [and_comm]
  constructor
  case name_eq => exact hsound.name_eq
  case stopping_iff => simp [Story.giveBack, hsound.stopping_iff]
  case numbers_eq => rw [hnumbers, hstarted, hsound.numbers_eq]
  case nextId_eq =>
    exact hsound.nextId_eq.trans (congrArg List.length hstarted.symm)
  case runnables_eq =>
    rw [hkept, ← hsound.runnables_eq]
    rfl
  case nodup_returned =>
    rw [hreturned, List.nodup_append]
    refine ⟨hsound.nodup_returned, List.nodup_singleton id, ?_⟩
    rintro other hother _ hid rfl
    exact hfresh (List.mem_singleton.mp hid ▸ hother)
  case returned_lt =>
    rw [hreturned, hstarted, List.forall_mem_append, List.forall_mem_singleton]
    exact ⟨hsound.returned_lt, (List.getElem?_eq_some_iff.mp hget).1⟩
  case stopped_eq =>
    rw [hreturned, hstarted, List.filterMap_append, ← hsound.stopped_eq]
    simp [Story.giveBack, hget]

theorem turn (hsound : story.Sound name) (hturn : Turn stop story call after) :
    after.Sound name := by
  cases hturn with
  | refused runnable start hstopping =>
      exact hsound.hear rfl rfl rfl rfl (by simp)
  | failed runnable start error hopen hstart =>
      exact hsound.hear rfl rfl rfl rfl (by simp)
  | loaded runnable start state hopen hstart => exact hsound.keep
  | missing id hmissing => exact hsound.hear rfl rfl rfl rfl (by simp)
  | unloaded id runnable hfound => exact hsound.giveBack hfound
  | stop => exact hsound.hear rfl rfl rfl rfl (by simp [Reactor.stop])

end Sound

theorem run_sound (name : String) (state : σ) (stop : ρ → σ → σ)
    (calls : List (Call ρ σ)) :
    (run name state stop calls).Sound name := by
  induction calls using List.reverseRecOn with
  | nil => exact .create name state
  | append_singleton calls call ih =>
      rw [run, List.foldl_concat]
      exact ih.turn (next_turn stop _ call)

theorem Turn.calls (hturn : Turn stop story call after) :
    after.replies.map Prod.fst = story.replies.map Prod.fst ++ [call] := by
  cases hturn <;> simp [hear, keep, giveBack]

theorem run_calls (name : String) (state : σ) (stop : ρ → σ → σ)
    (calls : List (Call ρ σ)) :
    (run name state stop calls).replies.map Prod.fst = calls := by
  induction calls using List.reverseRecOn with
  | nil => rfl
  | append_singleton calls call ih =>
      rw [run, List.foldl_concat, ← run, (next_turn stop _ call).calls, ih]

theorem Sound.stopped_perm (hsound : story.Sound name) :
    story.stopped.Perm
      ((story.started.zipIdx.filter fun start => start.2 ∈ story.returned).map
        Prod.fst) := by
  let start? (id : Nat) : Option (ρ × Nat) := story.started[id]?.map (·, id)
  have hstarts : (story.returned.filterMap start?).Nodup := by
    refine hsound.nodup_returned.filterMap fun id other start hid hother => ?_
    obtain ⟨_, -, rfl⟩ := Option.map_eq_some_iff.mp hid
    obtain ⟨_, -, hsame⟩ := Option.map_eq_some_iff.mp hother
    exact (congrArg Prod.snd hsame).symm
  have hall : story.started.zipIdx.Nodup := by
    apply List.Nodup.of_map Prod.snd
    rw [List.zipIdx_map_snd]
    exact List.nodup_range'
  have hperm : (story.returned.filterMap start?).Perm
      (story.started.zipIdx.filter fun start => start.2 ∈ story.returned) := by
    rw [List.perm_ext_iff_of_nodup hstarts (hall.filter _)]
    rintro ⟨runnable, id⟩
    simp only [start?, List.mem_filterMap, Option.map_eq_some_iff,
      Prod.mk.injEq, List.mem_filter,
      List.mem_zipIdx_iff_getElem?, decide_eq_true_eq]
    constructor
    · rintro ⟨_, hreturned, _, hget, rfl, rfl⟩
      exact ⟨hget, hreturned⟩
    · rintro ⟨hget, hreturned⟩
      exact ⟨id, hreturned, runnable, hget, rfl, rfl⟩
  have hstopped :
      story.stopped = (story.returned.filterMap start?).map Prod.fst := by
    rw [hsound.stopped_eq, List.map_filterMap]
    simp [start?, Function.comp_def]
  rw [hstopped]
  exact hperm.map Prod.fst

/-- Every start has one stop. -/
theorem Sound.stops_perm (hsound : story.Sound name) :
    (story.stopped ++ (story.reactor.runnables.map Prod.snd).reverse).Perm
      story.started := by
  have hkept : story.reactor.runnables.map Prod.snd =
      (story.started.zipIdx.filter fun start => start.2 ∉ story.returned).map
      Prod.fst := by
    rw [hsound.runnables_eq, kept, List.map_map]
    rfl
  have hparts :=
    List.filter_append_perm (fun start => decide (start.2 ∈ story.returned))
    story.started.zipIdx
  have hstops :=
    hsound.stopped_perm.append
      (List.reverse_perm (story.reactor.runnables.map Prod.snd))
  rw [hkept, ← List.map_append] at hstops
  refine hkept ▸ hstops.trans ?_
  have hall := hparts.map Prod.fst
  rw [List.zipIdx_map_fst] at hall
  simpa using hall

/-- Whatever is loaded, unloaded and asked in whatever order, numbers are given
one after the other and never again, in the order of the starts that succeed.
The reactor keeps these in their order until their numbers are given back, which
succeeds once for each. A load of a reactor that is stopping, and one whose
start fails, change nothing and give no number; nor does it change anything to
unload a number that is not loaded. In the end the components that are left are
stopped, the last one first, and every start has had one stop. -/
theorem every_start_has_one_stop (name : String) (state : σ) (stop : ρ → σ → σ)
    (calls : List (Call ρ σ)) :
    let story := run name state stop calls
    let ended :=
      story.reactor.unloadAll (noting stop) (story.state, story.stopped)
    story.replies.map Prod.fst = calls ∧
      (story.reactor.stopping ↔ .stop ∈ calls) ∧
      story.numbers = List.range story.started.length ∧
      story.reactor.nextId = story.started.length ∧
      story.reactor.runnables = story.kept ∧
      story.returned.Nodup ∧
      story.stopped = story.returned.filterMap (story.started[·]?) ∧
      (∀ id, story.reactor.find? id =
        if id ∈ story.returned then none else story.started[id]?) ∧
      (∀ call, Turn stop story call (story.next stop call)) ∧
      ended.1.runnables = [] ∧
      ended.2.2 =
      story.stopped ++ (story.reactor.runnables.map Prod.snd).reverse ∧
      ended.2.2.Perm story.started := by
  intro story ended
  have hsound : story.Sound name := run_sound name state stop calls
  have hended : ended = _ :=
    unloadAll_noting story.reactor stop story.state story.stopped
  refine ⟨run_calls name state stop calls, ?_, hsound.numbers_eq,
    hsound.nextId_eq,
    hsound.runnables_eq, hsound.nodup_returned, hsound.stopped_eq,
    hsound.find?_eq,
    next_turn stop story, ?_, ?_, ?_⟩
  · have hstopping := hsound.stopping_iff
    rwa [run_calls] at hstopping
  · rw [hended]
    rfl
  · rw [hended]
  · rw [hended]
    exact hsound.stops_perm

example :
    let calls : List (Call String Unit) :=
      [.load "a" .ok, .load "b" fun _ => .error .bridgeClosed, .load "c" .ok,
        .load "a" .ok, .unload 0, .unload 0, .stop, .load "d" .ok]
    let story := run "reactor" () (fun _ state => state) calls
    let ended :=
      story.reactor.unloadAll (noting fun _ state => state)
        (story.state, story.stopped)
    story.numbers = [0, 1, 2] ∧ ended.2.2 = ["a", "a", "c"] := by
  decide

end Story

end Reactor

end DnsForwarder
