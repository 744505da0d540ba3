import DnsForwarder.Proofs.Engine.Budget
import DnsForwarder.Proofs.Engine.Caching
import DnsForwarder.Proofs.Engine.Turnover

/-! The counters of an engine against the count of an observer, who sees the
requests and look-ups with their results and the entries before and after each
step. Every step keeps the two in balance, so every run does. -/

namespace DnsForwarder.Engine

variable {κ γ : Type}

structure Tally where
  /-- Requests that did not fail. -/
  accepted : Nat := 0
  served : Nat := 0
  refused : Nat := 0
  found : Nat := 0
  opened : Nat := 0
  /-- Entries that are gone since their last attempt ended. -/
  completed : Nat := 0
  /-- Entries that are gone since the engine stopped. -/
  dropped : Nat := 0
  retries : Nat := 0
  escalations : Nat := 0

def Tally.add (tally other : Tally) : Tally where
  accepted := tally.accepted + other.accepted
  served := tally.served + other.served
  refused := tally.refused + other.refused
  found := tally.found + other.found
  opened := tally.opened + other.opened
  completed := tally.completed + other.completed
  dropped := tally.dropped + other.dropped
  retries := tally.retries + other.retries
  escalations := tally.escalations + other.escalations

namespace Step

variable (step : Step κ γ)

def accepts : Bool :=
  match step.effect.resolution? with
  | some (.ok _) => true
  | _ => false

def serves : Bool :=
  match step.event, step.effect.resolution? with
  | .resolve question _ _ flags, some (.ok (.ready answer _)) =>
      !flags.bypassCache &&
        (step.before.cache.get step.now question).2 == some answer
  | _, _ => false

def refuses : Bool :=
  match step.event, step.effect.resolution? with
  | .resolve question _ _ flags, some (.ok (.ready answer _)) =>
      flags.cacheOnly && answer == refusal question
  | _, _ => false

def ends : Bool :=
  match step.event with
  | .ended .. => true
  | _ => false

def stops : Bool :=
  match step.event with
  | .stop => true
  | _ => false

def tally : Tally where
  accepted := step.accepts.toNat
  served := step.serves.toNat
  refused := step.refuses.toNat
  found := step.effect.found?.isSome.toNat
  opened := step.created.length
  completed := if step.ends then step.total .departures else 0
  dropped := if step.stops then step.total .departures else 0
  retries := step.total .retries
  escalations := step.total .escalations

end Step

def noteTally (tally : Tally) (step : Step κ γ) : Tally :=
  tally.add step.tally

/-- The counters of an engine with so many entries agree with an observer's
count. -/
structure Balanced (counters : Counters) (inFlight : Nat) (tally : Tally) :
    Prop where
  requests :
    tally.accepted = tally.served + tally.refused + counters.coalesced +
    tally.opened
  hits : counters.cacheHits = tally.served + tally.found
  entries : tally.opened = inFlight + tally.completed + tally.dropped
  queries : counters.queriesSent = tally.opened + tally.retries +
    tally.escalations
  timeouts : counters.timeouts + inFlight ≤ counters.queriesSent

/-- A step moves the counters by what the observer counts of it. -/
structure Step.Tallies (step : Step κ γ) : Prop where
  requests : step.tally.accepted + step.before.counters.coalesced =
    step.tally.served + step.tally.refused + step.after.counters.coalesced +
    step.tally.opened
  hits : step.after.counters.cacheHits =
    step.before.counters.cacheHits + step.tally.served + step.tally.found
  entries : step.before.inFlight.length + step.tally.opened =
    step.after.inFlight.length + step.tally.completed + step.tally.dropped
  queries : step.after.counters.queriesSent = step.before.counters.queriesSent +
    step.tally.opened + step.tally.retries + step.tally.escalations
  timeouts : step.after.counters.timeouts + step.after.inFlight.length +
      step.before.counters.queriesSent ≤
    step.before.counters.timeouts + step.before.inFlight.length +
      step.after.counters.queriesSent

theorem Balanced.next {step : Step κ γ} {tally : Tally}
    (hbalanced : Balanced step.before.counters
      step.before.inFlight.length tally)
    (htallies : step.Tallies) :
    Balanced step.after.counters step.after.inFlight.length
      (noteTally tally step) := by
  obtain ⟨hrequests, hhits, hentries, hqueries, htimeouts⟩ := hbalanced
  obtain ⟨hrequests', hhits', hentries', hqueries', htimeouts'⟩ := htallies
  constructor
  case timeouts => omega
  all_goals
    simp only [noteTally, Tally.add]
    omega

section Steps

variable {step : Step κ γ}

theorem Step.Still.tally_eq (hstill : step.Still) :
    step.tally =
      { accepted := step.accepts.toNat
        served := step.serves.toNat
        refused := step.refuses.toNat
        found := step.effect.found?.isSome.toNat } := by
  simp [Step.tally, hstill.created, hstill.total]

theorem Step.Still.tallies (hstill : step.Still)
    (hrequests : step.accepts.toNat + step.before.counters.coalesced =
      step.serves.toNat + step.refuses.toNat + step.after.counters.coalesced)
    (hhits : step.after.counters.cacheHits = step.before.counters.cacheHits +
      step.serves.toNat + step.effect.found?.isSome.toNat)
    (hqueries : step.after.counters.queriesSent =
      step.before.counters.queriesSent)
    (htimeouts : step.after.counters.timeouts = step.before.counters.timeouts) :
    step.Tallies := by
  have hlength := hstill.length
  constructor <;> simp only [hstill.tally_eq, hqueries, htimeouts] <;> omega

theorem tallies_of_opened (hkeyed : step.before.Keyed) {asked : Question}
    {caller : κ}
    {context : γ} {flags : Flags} {cache : AnswerCache} {query : Octets}
    (hentry : step.before.entry? asked = none)
    (hevent : step.event = .resolve asked caller context flags)
    (heffect : step.effect =
      { engine :=
          { step.before with cache }.openEntry step.now asked query
            ⟨caller, context⟩
        resolution? := some (.ok .pending) }) : step.Tallies := by
  have hafter : step.after =
      { step.before with cache }.openEntry step.now asked query
      ⟨caller, context⟩ := by
    rw [Step.after, heffect]
  have hcreated := Step.created_of_opened hentry hafter
  have hinFlight := Step.inFlight_of_opened hentry hafter
  have htotal (measure : Measure κ γ) : step.total measure = 0 :=
    step.total_of_keeps measure (hkeyed.keeps_of_opened hentry hafter)
  have htally : step.tally = { accepted := 1, opened := 1 } := by
    simp [Step.tally, hcreated, htotal, heffect, hevent, Step.accepts,
      Step.serves, Step.refuses]
  have hcounters : step.after.counters =
      { step.before.counters with
        queriesSent := step.before.counters.queriesSent + 1 } := by
    rw [hafter, openEntry_eq, launch_counters]
    rfl
  constructor <;> simp only [htally, hcounters, hinFlight, List.length_append,
    List.length_singleton] <;> omega

theorem countersAfter_bounds (engine : Engine κ γ) (ending : AttemptEnd) :
    (engine.countersAfter ending).coalesced = engine.counters.coalesced ∧
      (engine.countersAfter ending).cacheHits = engine.counters.cacheHits ∧
      (engine.countersAfter ending).queriesSent = engine.counters.queriesSent ∧
      (engine.countersAfter ending).timeouts ≤
        engine.counters.timeouts + 1 := by
  cases ending with
  | alarm => exact ⟨rfl, rfl, rfl, Nat.le_refl _⟩
  | result result => exact ⟨rfl, rfl, rfl, Nat.le_succ _⟩

/-- Another attempt spends a retry or goes over TCP instead of UDP, and not
both. -/
theorem amounts_of_again {entry : InFlight κ γ} {settings : Settings}
    {ending : AttemptEnd} {server : Nat} {protocol : Protocol}
    {retriesDone generation : Nat}
    (hagain : entry.sequel settings ending =
      .again server protocol retriesDone) :
    let later := some { entry with server, protocol, retriesDone, generation }
    Measure.retries.amount entry later +
    Measure.escalations.amount entry later = 1 := by
  rcases InFlight.sequel_again hagain with ⟨-, rfl, -⟩ | ⟨hudp, rfl, rfl⟩
  · simp [Measure.retries, Measure.escalations]
  · simp [Measure.retries, Measure.escalations, hudp]

section Ended

variable {entry : InFlight κ γ} {front back : List (InFlight κ γ)}
  {generation : Nat} {ending : AttemptEnd}

theorem Step.tally_of_ended {asked : Question}
    (hevent : step.event = .ended asked generation ending)
    (hresolution : step.effect.resolution? = none)
    (hfound : step.effect.found? = none) (hcreated : step.created = []) :
    step.tally =
      { completed := step.total .departures
        retries := step.total .retries
        escalations := step.total .escalations } := by
  simp [tally, accepts, serves, refuses, ends, stops, hevent, hresolution,
    hfound, hcreated]

variable (hkeyed : step.before.Keyed)
  (hsplit : Split step.before.inFlight entry front back)
  (htally : step.tally =
    { completed := step.total .departures
      retries := step.total .retries
      escalations := step.total .escalations })
include hkeyed hsplit htally

theorem tallies_of_again {server : Nat} {protocol : Protocol}
    {retriesDone : Nat}
    (hagain : entry.sequel step.before.settings ending =
      .again server protocol retriesDone)
    (hafter : step.after =
      ((step.before.afterEnd generation ending).proceed step.now entry
        (.again server protocol retriesDone)).1) :
    step.Tallies := by
  have hsplit' :
      Split (step.before.afterEnd generation ending).inFlight entry front
      back := hsplit
  let later : InFlight κ γ :=
    { entry with
      server, protocol, retriesDone, generation := step.before.generations + 1 }
  have hlater : Engine.entry? step.after entry.question = some later := by
    rw [hafter]
    exact (entry?_launch _ _ entry.question step.now).trans (if_pos rfl)
  have htotal (measure : Measure κ γ) :
      step.total measure = measure.amount entry (some later) := by
    rw [← hlater]
    exact hkeyed.total_of_proceeded measure hsplit hafter
  have hlength : step.after.inFlight.length = step.before.inFlight.length := by
    rw [hafter, proceed, hsplit'.launch_inFlight step.now (by rfl), hsplit.eq,
      List.length_append, List.length_append]
    rfl
  have hcounters : step.after.counters =
      { step.before.countersAfter ending with
        queriesSent :=
          (step.before.countersAfter ending).queriesSent + 1 } := by
    rw [hafter, proceed, launch_counters]
    rfl
  have hgone : Measure.departures.amount entry (some later) = 0 := rfl
  have hamounts : Measure.retries.amount entry (some later) +
      Measure.escalations.amount entry (some later) = 1 :=
      amounts_of_again hagain
  obtain ⟨hcoalesced, hhits, hqueries, htimeouts⟩ :=
    step.before.countersAfter_bounds ending
  constructor <;> simp only [htally, htotal, hgone, hlength, hcounters] <;>
    omega

theorem tallies_of_answered {answer : Answer}
    (hafter : step.after =
      ((step.before.afterEnd generation ending).proceed step.now entry
        (.answered answer)).1) :
    step.Tallies := by
  have hsplit' :
      Split (step.before.afterEnd generation ending).inFlight entry front
      back := hsplit
  have hgone : Engine.entry? step.after entry.question = none := by
    rw [hafter]
    exact (entry?_settle _ entry entry.question step.now answer).trans
      (if_pos rfl)
  have htotal (measure : Measure κ γ) :
      step.total measure = measure.amount entry none := by
    rw [← hgone]
    exact hkeyed.total_of_proceeded measure hsplit hafter
  have hlength :
      step.before.inFlight.length = step.after.inFlight.length + 1 := by
    rw [hafter, proceed, hsplit'.settle_inFlight, hsplit.eq, List.length_append,
      List.length_append]
    rfl
  have hcounters : step.after.counters = step.before.countersAfter ending := by
    rw [hafter]
    rfl
  have hamounts : Measure.departures.amount entry none = 1 ∧
      Measure.retries.amount entry none = 0 ∧
      Measure.escalations.amount entry none = 0 :=
    ⟨rfl, rfl, rfl⟩
  obtain ⟨hcoalesced, hhits, hqueries, htimeouts⟩ :=
    step.before.countersAfter_bounds ending
  constructor <;> simp only [htally, htotal, hamounts, hlength, hcounters] <;>
    omega

end Ended

theorem tallies_of_stopped (hevent : step.event = .stop)
    (heffect : step.effect =
      { engine := step.before.stop.1, deliveries := step.before.stop.2 }) :
    step.Tallies := by
  have hafter : step.after = step.before.stop.1 := by
    rw [Step.after, heffect]
  have hcreated : step.created = [] := by
    rw [Step.created, hafter]
    rfl
  have htotal (measure : Measure κ γ) (amount : Nat)
      (hamount : ∀ entry, measure.amount entry none = amount) :
      step.total measure = step.before.inFlight.length * amount := by
    rw [step.total_of_none measure fun question => by rw [hafter]; rfl]
    simp only [hamount, List.map_const', List.sum_replicate_nat]
  have htally : step.tally = { dropped := step.before.inFlight.length } := by
    have hdropped := htotal .departures 1 fun _ => rfl
    have hretries := htotal .retries 0 fun _ => rfl
    have hescalations := htotal .escalations 0 fun _ => rfl
    simp [Step.tally, Step.accepts, Step.serves, Step.refuses, Step.ends,
      Step.stops, hevent, heffect, hcreated, hdropped, hretries, hescalations]
  have hempty : step.after.inFlight.length = 0 := by
    rw [hafter]
    rfl
  have hcounters : step.after.counters = step.before.counters := by
    rw [hafter]
    rfl
  constructor <;> simp only [htally, hempty, hcounters] <;> omega

end Steps

section Requests

variable {engine after : Engine κ γ} {now : Nat} {question : Question}
  {caller : κ} {context : γ} {flags : Flags}
  {resolution : Except Error (Resolution γ)}

theorem refusal_not_cached
    (hcacheable : ∀ kept ∈ engine.cache.entries, kept.answer.status.isCacheable)
    (now : Nat) (question : Question) :
    (engine.cache.get now question).2 ≠ some (refusal question) := by
  intro hget
  obtain ⟨kept, hkept, hanswer, -⟩ := AnswerCache.get_mem hget
  have hstatus := hcacheable kept hkept
  rw [hanswer] at hstatus
  exact absurd hstatus Bool.false_ne_true

theorem Treatment.tallies (harmed : engine.Armed)
    (hcacheable : ∀ kept ∈ engine.cache.entries, kept.answer.status.isCacheable)
    (htreatment : engine.Treatment now question caller context flags after
      resolution) :
    Step.Tallies ⟨engine, now, .resolve question caller context flags,
      { engine := after, resolution? := some resolution }⟩ := by
  have hkeyed := harmed.keyed
  have hrefusal := refusal_not_cached hcacheable now question
  cases htreatment with
  | unstarted hstarted =>
      exact (Keyed.still_of_same hkeyed rfl).tallies rfl rfl rfl rfl
  | served answer hstarted hcached hfound =>
      -- A refusal is never cached, so what the cache answered is not counted as
      -- refused too.
      have hother : answer ≠ refusal question := by
        rintro rfl
        exact hrefusal hfound
      refine (Keyed.still_of_same hkeyed rfl).tallies ?_ ?_ rfl rfl
      · simp [Step.accepts, Step.serves, Step.refuses, Step.after, hcached,
          hfound, hother, countHit, consulted]
      · simp [Step.serves, Step.after, hcached, hfound, countHit, consulted]
  | refused hstarted hmisses hcacheOnly =>
      have hserves : (!flags.bypassCache &&
          (engine.cache.get now question).2 == some (refusal question)) =
          false := by
        simp [hrefusal]
      refine (Keyed.still_of_same hkeyed rfl).tallies ?_ ?_ rfl rfl
      · simp [Step.accepts, Step.serves, Step.refuses, Step.after, hserves,
          hcacheOnly, consulted]
      · simp [Step.serves, Step.after, hserves, consulted]
  | joined entry hstarted hmisses hasks hentry =>
      refine (Keyed.still_of_joined hkeyed hentry rfl).tallies ?_ ?_ ?_ ?_ <;>
        simp [Step.accepts, Step.serves, Step.refuses, Step.after, join,
          consulted, Nat.add_comm]
  | rejected error hstarted hmisses hasks hentry hquery =>
      exact (Keyed.still_of_same hkeyed rfl).tallies rfl rfl rfl rfl
  | opened query hstarted hmisses hasks hentry hquery =>
      exact tallies_of_opened hkeyed hentry rfl rfl

theorem lookup_tallies (hkeyed : engine.Keyed) :
    Step.Tallies ⟨engine, now, .lookup question,
      { engine := (engine.lookup now question).1
        found? := (engine.lookup now question).2 }⟩ := by
  have hcached : ({} : Flags).bypassCache = false := rfl
  cases hfound : (engine.cache.get now question).2 with
  | some answer =>
      rw [lookup_of_some hcached hfound]
      exact (Keyed.still_of_same hkeyed rfl).tallies rfl rfl rfl rfl
  | none =>
      rw [lookup_of_none hcached hfound]
      exact (Keyed.still_of_same hkeyed rfl).tallies rfl rfl rfl rfl

end Requests

section Runs

variable [DecidableEq κ] {engine : Engine κ γ}

theorem tallies_of_perform (harmed : engine.Armed)
    (hcacheable : ∀ kept ∈ engine.cache.entries, kept.answer.status.isCacheable)
    (now : Nat) (event : Event κ γ) :
    Step.Tallies ⟨engine, now, event, engine.perform now event⟩ := by
  have hkeyed := harmed.keyed
  cases event with
  | wait ms => exact (Keyed.still_of_same hkeyed rfl).tallies rfl rfl rfl rfl
  | start =>
      by_cases hservers : engine.settings.servers = []
      · simp only [perform, start, hservers, if_true]
        exact (Keyed.still_of_same hkeyed rfl).tallies rfl rfl rfl rfl
      · simp only [perform, start, hservers, if_false]
        exact (Keyed.still_of_same hkeyed rfl).tallies rfl rfl rfl rfl
  | resolve question caller context flags =>
      exact (engine.resolve_treatment now question caller context flags).tallies
        harmed hcacheable
  | lookup question => exact lookup_tallies hkeyed
  | cancel caller =>
      exact (Keyed.still_of_cancelled hkeyed rfl).tallies rfl rfl rfl rfl
  | ended question generation ending =>
      cases hcurrent : engine.current? question generation with
      | none =>
          simp only [perform, onEnd_of_stale hcurrent]
          exact (Keyed.still_of_same hkeyed rfl).tallies rfl rfl rfl rfl
      | some entry =>
          obtain ⟨front, back, hsplit⟩ :=
            hkeyed.split (entry?_of_current? hcurrent).1
          simp only [perform, onEnd_of_current hcurrent]
          cases hsequel : entry.sequel engine.settings ending with
          | again server protocol retriesDone =>
              refine tallies_of_again hkeyed hsplit
                (Step.tally_of_ended rfl rfl rfl ?_) hsequel rfl
              exact Step.created_of_proceeded hsplit rfl
          | answered answer =>
              refine tallies_of_answered hkeyed hsplit
                (Step.tally_of_ended rfl rfl rfl ?_) rfl
              exact Step.created_of_proceeded hsplit rfl
  | stop => exact tallies_of_stopped rfl rfl

theorem perform_cacheable
    (hcacheable : ∀ kept ∈ engine.cache.entries, kept.answer.status.isCacheable)
    (now : Nat) (event : Event κ γ) :
    ∀ kept ∈ (engine.perform now event).engine.cache.entries,
      kept.answer.status.isCacheable := by
  intro kept hkept
  rcases perform_cache hkept with
    hold | ⟨question, generation, ending, entry, -, -, -, hstatus⟩
  · exact hcacheable kept hold
  · exact hstatus

/-- After every run, restarts included, the counters balance. The requests that
did not fail are those that the cache answered, those that were refused, those
that joined an entry and those that made one. The hits are those of requests and
those of look-ups. The entries that were made are under way, ended or were
dropped when the engine stopped. The queries are the first ones of the entries
and one for each retry and for each change to TCP. And there are as many queries
at least as there were timeouts and are entries. -/
theorem counters_balance (settings : Settings) (ids : Nat → UInt16)
    (events : List (Event κ γ)) :
    let watched := Watched.run noteTally {} settings ids events
    let counters := watched.engine.counters
    let inFlight := watched.engine.inFlight.length
    let tally := watched.notes
    tally.accepted = tally.served + tally.refused + counters.coalesced +
    tally.opened ∧ counters.cacheHits = tally.served + tally.found ∧
      tally.opened = inFlight + tally.completed + tally.dropped ∧
      counters.queriesSent = tally.opened + tally.retries + tally.escalations ∧
      counters.timeouts + inFlight ≤ counters.queriesSent := by
  intro watched counters inFlight tally
  obtain ⟨-, -, hbalanced⟩ : watched.engine.Armed ∧
      (∀ kept ∈ watched.engine.cache.entries, kept.answer.status.isCacheable) ∧
      Balanced counters inFlight tally := by
    refine Watched.run_invariant (fun watched : Watched κ γ Tally =>
      watched.engine.Armed ∧
      (∀ kept ∈ watched.engine.cache.entries, kept.answer.status.isCacheable) ∧
      Balanced watched.engine.counters watched.engine.inFlight.length
        watched.notes) ?_ ?_ events
    · exact ⟨create_armed settings ids, nofun, by constructor <;> simp [create]⟩
    · rintro watched event ⟨harmed, hcacheable, hbalanced⟩
      refine ⟨harmed.move (perform_move _ _ event),
        perform_cacheable hcacheable _ event, ?_⟩
      have htallies : (watched.step event).Tallies :=
        tallies_of_perform harmed hcacheable watched.now event
      exact Balanced.next hbalanced htallies
  exact ⟨hbalanced.requests, hbalanced.hits, hbalanced.entries,
    hbalanced.queries, hbalanced.timeouts⟩

end Runs

end DnsForwarder.Engine
