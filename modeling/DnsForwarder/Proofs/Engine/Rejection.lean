import DnsForwarder.Proofs.Engine.Apart
import DnsForwarder.Proofs.Engine.Freshness
import DnsForwarder.Proofs.Engine.Ledger
import DnsForwarder.Proofs.Message.Matching

/-! Requests that fail. An engine that is not started takes none, and one that
runs takes none for a name that cannot be sent to a server. It finds that out
after its look into the cache; but such a name is never in the cache and never
under way, so the look has changed nothing. -/

namespace DnsForwarder

/-- The name of a question can be sent to a server. -/
def Question.Askable (question : Question) : Prop :=
  ∃ labels, DomainName.toLabels question.queryName = .ok labels

theorem Message.askable_of_buildQuery {question : Question} {id : UInt16}
    {query : Octets} (hbuild : buildQuery question id = .ok query) :
    question.Askable := by
  cases hlabels : DomainName.toLabels question.queryName with
  | ok labels => exact ⟨labels, hlabels⟩
  | error error =>
      rw [buildQuery_eq_error_iff.mpr hlabels] at hbuild
      cases hbuild

theorem AnswerCache.get_of_forall_ne {cache : AnswerCache} {question : Question}
    (hothers : ∀ kept ∈ cache.entries, kept.question ≠ question) (now : Nat) :
    cache.get now question = (cache, none) := by
  have hfind : cache.find? question = none := by
    simpa [find?] using hothers
  rw [get, hfind]

namespace Engine

variable {κ γ : Type}

section Requests

variable {engine after : Engine κ γ} {now : Nat} {question : Question}
  {caller : κ} {context : γ} {flags : Flags} {error : Error}

structure Askable (engine : Engine κ γ) : Prop where
  entries : ∀ entry ∈ engine.inFlight, entry.question.Askable
  answers : ∀ kept ∈ engine.cache.entries, kept.question.Askable

theorem create_askable (settings : Settings) (ids : Nat → UInt16) :
    (create settings ids : Engine κ γ).Askable :=
  ⟨nofun, nofun⟩

theorem Askable.perform [DecidableEq κ] (haskable : engine.Askable) (now : Nat)
    (event : Event κ γ) : (engine.perform now event).engine.Askable where
  entries entry hentry := by
    cases (perform_move engine now event).descends hentry with
    | kept old hold hquestion =>
        rw [hquestion]
        exact haskable.entries old hold
    | opened caller context flags hevent hbuilt =>
        exact Message.askable_of_buildQuery hbuilt
  answers kept hkept := by
    rcases perform_cache hkept with
      hold | ⟨question, generation, ending, entry, -, hcurrent, hanswered, -⟩
    · exact haskable.answers kept hold
    · have hquestion : kept.question = entry.question :=
        InFlight.sequel_question hanswered
      rw [hquestion]
      exact haskable.entries entry (entry?_mem (entry?_of_current? hcurrent).1)

theorem Askable.consulted_eq (haskable : engine.Askable)
    (hquestion : ¬question.Askable) :
    engine.consulted now question flags = engine := by
  have hget : engine.cache.get now question = (engine.cache, none) := by
    apply AnswerCache.get_of_forall_ne
    rintro kept hkept rfl
    exact hquestion (haskable.answers kept hkept)
  simp [consulted, hget]

/-- A request fails because the engine is not started or the name cannot be
sent, and leaves the engine as it was. -/
theorem Treatment.of_error (haskable : engine.Askable)
    (htreatment : engine.Treatment now question caller context flags after
      (.error error)) :
    (engine.started = false ∧ error = .notStarted ∨
      engine.started = true ∧ DomainName.toLabels question.queryName =
        .error error) ∧
      after = engine := by
  cases htreatment with
  | unstarted hstarted => exact ⟨.inl ⟨hstarted, rfl⟩, rfl⟩
  | rejected error hstarted hmisses hasks hentry hquery =>
      have hlabels := Message.buildQuery_eq_error_iff.mp hquery
      refine ⟨.inr ⟨hstarted, hlabels⟩, haskable.consulted_eq ?_⟩
      rintro ⟨labels, hread⟩
      rw [hlabels] at hread
      cases hread

end Requests

def contexts (engine : Engine κ γ) : List γ :=
  engine.parked.map fun request => request.waiter.context

def Event.contexts : Event κ γ → List γ
  | .resolve _ _ context _ => [context]
  | _ => []

def Effect.returned (effect : Effect κ γ) : List γ :=
  match effect.resolution? with
  | some (.ok (.ready _ context)) => [context]
  | _ => []

/-- Of the contexts that an engine has and is given, a step releases those that
the engine neither keeps nor gives back nor hands out with an answer. -/
def Step.Releases (step : Step κ γ) (released : List γ) : Prop :=
  (step.before.contexts ++ step.event.contexts).Perm
    (step.after.contexts ++ step.effect.returned ++
      (step.effect.deliveries.map fun delivery => delivery.waiter.context) ++
      released)

section Runs

variable [DecidableEq κ]

theorem run_askable {σ : Type} {watch : σ → Step κ γ → σ} {notes : σ}
    (settings : Settings) (ids : Nat → UInt16) (events : List (Event κ γ)) :
    (Watched.run watch notes settings ids events).engine.Askable :=
  Watched.run_invariant (fun watched => watched.engine.Askable)
    (create_askable settings ids)
    (fun watched event haskable => haskable.perform watched.now event) events

theorem foldl_noteCalls (plain : Watched κ γ (List (Call κ γ)))
    (events : List (Event κ γ)) :
    ∃ later, (events.foldl (Watched.next noteCalls) plain).notes =
      plain.notes ++ later := by
  induction events generalizing plain with
  | nil => exact ⟨[], (List.append_nil _).symm⟩
  | cons event events ih =>
      obtain ⟨later, hlater⟩ := ih (Watched.next noteCalls plain event)
      refine ⟨event.calls (plain.step event).effect.resolution? ++ later,
        hlater.trans ?_⟩
      exact List.append_assoc _ _ _

variable (settings : Settings) (ids : Nat → UInt16)

/-- The request of a call that was not left to wait is nowhere, whatever comes
after it. -/
theorem Ledger.placesOf_of_refused (before after : List (Act κ γ))
    {question : Question} {caller : κ} {context : γ} {flags : Flags}
    {resolution : Except Error (Resolution γ)}
    (hsettled : resolution ≠ .ok .pending) :
    let plain :=
      Watched.run noteCalls [] settings ids (before.filterMap Act.event?)
    let event := Event.resolve question caller context flags
    let ledger := Ledger.run settings ids (before ++ .perform event :: after)
    (plain.step event).effect.resolution? = some resolution →
      ledger.calls[plain.notes.length]? =
      some ⟨question, caller, context, resolution⟩ ∧
        ledger.placesOf plain.notes.length = [] := by
  intro plain event ledger hresolution
  have hcalls : ledger.calls[plain.notes.length]? =
      some ⟨question, caller, context, resolution⟩ := by
    obtain ⟨-, -, hnotes⟩ :=
      Ledger.run_mirrors settings ids (before ++ .perform event :: after)
    obtain ⟨later, hlater⟩ :=
      foldl_noteCalls (Watched.next noteCalls plain event)
        (after.filterMap Act.event?)
    have hcall : (Watched.next noteCalls plain event).notes =
        plain.notes ++ [⟨question, caller, context, resolution⟩] := by
      simp only [Watched.next, noteCalls, hresolution]
      rfl
    rw [hcall] at hlater
    have hsame : ledger.calls =
        plain.notes ++ [⟨question, caller, context, resolution⟩] ++ later := by
      rw [← hlater]
      simpa [plain, Watched.run, Act.event?] using hnotes
    rw [hsame, List.append_assoc, List.getElem?_append_right (Nat.le_refl _),
      Nat.sub_self]
    rfl
  exact ⟨hcalls, placesOf_of_not_pending (Ledger.run_accounted settings ids _)
      hcalls hsettled⟩

/-- After every run, a request fails only because the engine is not started or
because the name of its question cannot be sent. It leaves the whole engine as
it was, its cache with the answers that are out of date and with their order
too. Its context is released once, and whatever comes after it, its request
never waits and never gets an answer. -/
theorem failed_requests_leave_no_trace (before after : List (Act κ γ))
    (question : Question) (caller : κ) (context : γ) (flags : Flags)
    (error : Error)
    (hfailed :
      ((Watched.run noteCalls [] settings ids
        (before.filterMap Act.event?)).step
        (.resolve question caller context flags)).effect.resolution? =
        some (.error error)) :
    let watched :=
      Watched.run noteCalls [] settings ids (before.filterMap Act.event?)
    let event := Event.resolve question caller context flags
    let step := watched.step event
    let ledger := Ledger.run settings ids (before ++ .perform event :: after)
    (watched.engine.started = false ∧ error = .notStarted ∨
      watched.engine.started = true ∧ DomainName.toLabels question.queryName =
      .error error) ∧
    step.after = watched.engine ∧
    step.Releases [context] ∧
    ledger.calls[watched.notes.length]? =
    some ⟨question, caller, context, .error error⟩ ∧
    ledger.placesOf watched.notes.length = [] := by
  intro watched event step ledger
  have haskable : watched.engine.Askable := run_askable settings ids _
  have hresolution :
      (watched.engine.resolve watched.now question caller context flags).2 =
        .error error :=
    Option.some.inj hfailed
  have htreatment :=
    watched.engine.resolve_treatment watched.now question caller context flags
  rw [hresolution] at htreatment
  obtain ⟨hcause, hsame⟩ := htreatment.of_error haskable
  have hafter : step.after = watched.engine := hsame
  refine ⟨hcause, hafter, ?_, Ledger.placesOf_of_refused settings ids before
      after nofun hfailed⟩
  have hreturned : step.effect.returned = [] := by
    rw [Effect.returned, hfailed]
  have hdeliveries : step.effect.deliveries = [] := rfl
  rw [Step.Releases, hafter, hreturned, hdeliveries, List.append_nil,
    List.map_nil, List.append_nil]
  exact List.Perm.refl _

/-- A name with a letter that no label takes. -/
def unsendable : Question :=
  ⟨.a, .name "bücher.example"⟩

/-- An answer is kept until it is out of date, and then another one is under
way. -/
def busyActs : List (Act Unit Unit) :=
  minuteEvents.map .perform ++
    [.perform (.wait 1),
    .perform (.resolve ⟨.aaaa, .name "example.com"⟩ () () {})]

theorem unsendable_name_leaves_no_trace :
    let settings := Settings.withServer (.v4 ⟨192, 0, 2, 1⟩ 53)
    let watched :=
      Watched.run noteCalls [] settings (fun _ => 0)
        (busyActs.filterMap Act.event?)
    let event := Event.resolve unsendable () () {}
    let step := watched.step event
    let ledger := Ledger.run settings (fun _ => 0)
      (busyActs ++ .perform event :: [.perform .stop, .hand, .hand])
    (watched.engine.cache.entries.length = 1 ∧
      watched.engine.inFlight.length = 1) ∧ step.effect.resolution? =
        some (.error (.invalidName (.unencodable "bücher.example."))) ∧
      step.after = watched.engine ∧ step.Releases [()] ∧
      ledger.placesOf watched.notes.length = [] := by
  intro settings watched event step ledger
  have hfailed : step.effect.resolution? =
      some (.error (.invalidName (.unencodable "bücher.example."))) := by
    decide +kernel
  obtain ⟨-, hafter, hreleases, -, hnowhere⟩ :=
    failed_requests_leave_no_trace settings (fun _ => 0) busyActs
      [.perform .stop, .hand, .hand] unsendable () () {} _ hfailed
  exact ⟨by decide +kernel, hfailed, hafter, hreleases, hnowhere⟩

end Runs

end Engine

end DnsForwarder
