import DnsForwarder.Proofs.Engine.Attempts
import DnsForwarder.Proofs.Engine.Caching
import DnsForwarder.Proofs.Engine.Delivery

/-! What calls for one question leave to the others. While the cache has room
for all questions, an engine keeps their answers apart as it keeps their entries
apart. -/

namespace DnsForwarder.Engine

variable {κ γ : Type} {engine before middle after : Engine κ γ}
  {entry : InFlight κ γ} {question other : Question} {now : Nat}

/-- Nothing of a question's entry and answer is touched, and no attempt that was
made before gets another alarm. -/
structure Spares (question : Question) (before after : Engine κ γ) : Prop where
  started : after.started = before.started
  entry : after.entry? question = before.entry? question
  found : after.cache.find? question = before.cache.find? question
  generations : before.generations ≤ after.generations
  alarms : ∀ alarm ∈ after.alarms, alarm ∈ before.alarms ∨ before.generations <
    alarm.generation

namespace Spares

theorem refl (question : Question) (engine : Engine κ γ) :
    Spares question engine engine :=
  ⟨rfl, rfl, rfl, Nat.le_refl _, fun _ => .inl⟩

theorem trans (hfirst : Spares question before middle)
    (hsecond : Spares question middle after) :
    Spares question before after where
  started := hsecond.started.trans hfirst.started
  entry := hsecond.entry.trans hfirst.entry
  found := hsecond.found.trans hfirst.found
  generations := Nat.le_trans hfirst.generations hsecond.generations
  alarms alarm halarm := by
    rcases hsecond.alarms alarm halarm with hmiddle | hnew
    · exact hfirst.alarms alarm hmiddle
    · exact .inr (Nat.lt_of_le_of_lt hfirst.generations hnew)

end Spares

theorem turned_spares (engine : Engine κ γ) (question : Question) :
    Spares question engine engine.turned :=
  ⟨rfl, rfl, rfl, Nat.le_refl _, fun _ => .inl⟩

theorem afterEnd_spares (engine : Engine κ γ) (question : Question)
    (generation : Nat) (ending : AttemptEnd) :
    Spares question engine (engine.afterEnd generation ending) :=
  ⟨rfl, rfl, rfl, Nat.le_refl _, fun _ halarm =>
    .inl (List.mem_of_mem_filter halarm)⟩

theorem launch_spares (engine : Engine κ γ) (now : Nat)
    (hother : entry.question ≠ question) :
    Spares question engine (engine.launch now entry) where
  started := launch_started engine entry now
  entry := by rw [entry?_launch, if_neg hother]
  found := by rw [launch_cache]
  generations := Nat.le_succ _
  alarms alarm halarm := by
    simp only [launch, putEntry_alarms, List.mem_append, List.mem_singleton]
      at halarm
    rcases halarm with hold | rfl
    · exact .inl (List.mem_of_mem_filter hold)
    · exact .inr (Nat.lt_succ_self _)

theorem lookup_spares (engine : Engine κ γ) (now : Nat)
    (hother : other ≠ question) :
    Spares question engine (engine.lookup now other).1 := by
  obtain ⟨counters, hlookup, -⟩ := engine.lookup_eq now other
  rw [hlookup]
  exact {
    started := rfl
    entry := rfl
    found := AnswerCache.find?_get_of_ne _ _ hother
    generations := Nat.le_refl _
    alarms := fun _ => .inl }

theorem resolveUncached_spares (engine : Engine κ γ) (now : Nat)
    (waiter : Waiter κ γ) (flags : Flags) (hother : other ≠ question) :
    Spares question engine
      (engine.resolveUncached now other waiter flags).1 := by
  unfold resolveUncached
  split
  next => exact .refl question engine
  next =>
    split
    next entry hentry =>
      have hquestion : entry.question ≠ question :=
        entry?_question hentry ▸ hother
      refine ⟨by simp [join], ?_, by simp [join], by simp [join],
        fun alarm halarm => .inl ?_⟩
      · exact (entry?_putEntry engine _ question).trans (if_neg hquestion)
      · simpa [join] using halarm
    next =>
      split
      next => exact .refl question engine
      next query _ =>
        exact (turned_spares engine question).trans
          (launch_spares engine.turned now hother)

theorem resolve_spares (engine : Engine κ γ) (now : Nat) (caller : κ)
    (context : γ) (flags : Flags) (hother : other ≠ question) :
    Spares question engine
      (engine.resolve now other caller context flags).1 := by
  unfold resolve
  split
  next => exact .refl question engine
  next =>
    split
    next => exact resolveUncached_spares engine now _ flags hother
    next =>
      have hlookup := lookup_spares engine now hother
      split
      next heq => rwa [heq] at hlookup
      next heq =>
        rw [heq] at hlookup
        exact hlookup.trans (resolveUncached_spares _ now _ flags hother)

theorem proceed_spares {questions : List Question}
    (hroomy : engine.cache.Roomy questions)
    (hasked : entry.question ∈ questions) (hother : entry.question ≠ question)
    (now : Nat) {sequel : Sequel}
    (hsequel : ∀ answer, sequel = .answered answer →
      answer.question = entry.question) :
    Spares question engine (engine.proceed now entry sequel).1 := by
  cases sequel with
  | again server protocol retriesDone =>
      exact launch_spares engine now hother
  | answered answer =>
      have hquestion := hsequel answer rfl
      refine ⟨rfl, ?_, ?_, Nat.le_refl _, fun alarm halarm =>
        .inl (List.mem_of_mem_filter halarm)⟩
      · exact (entry?_settle engine entry question now answer).trans
          (if_neg hother)
      · exact AnswerCache.find?_insert_of_ne engine.cache now answer
          (hroomy.others_length_lt (hquestion ▸ hasked)) (hquestion ▸ hother)

theorem onEnd_spares {questions : List Question}
    (hroomy : engine.cache.Roomy questions)
    (hasked : ∀ entry ∈ engine.inFlight, entry.question ∈ questions)
    (hother : other ≠ question) (now generation : Nat) (ending : AttemptEnd) :
    Spares question engine (engine.onEnd now other generation ending).1 := by
  cases hcurrent : engine.current? other generation with
  | none =>
      rw [onEnd_of_stale hcurrent]
      exact .refl question engine
  | some entry =>
      have hentry := (entry?_of_current? hcurrent).1
      rw [onEnd_of_current hcurrent]
      refine (afterEnd_spares engine question generation ending).trans ?_
      have hroomy : (engine.afterEnd generation ending).cache.Roomy questions :=
        hroomy
      refine proceed_spares hroomy (hasked entry (entry?_mem hentry)) ?_ now
        fun answer => InFlight.sequel_question
      rwa [entry?_question hentry]

theorem mem_putEntry {put : InFlight κ γ}
    (hentry : entry ∈ (engine.putEntry put).inFlight) :
    entry = put ∨ entry ∈ engine.inFlight := by
  cases hold : engine.entry? put.question with
  | none =>
      rw [putEntry_inFlight_of_none hold, List.mem_append, List.mem_singleton]
        at hentry
      exact hentry.symm
  | some old =>
      rw [putEntry_inFlight_of_some hold] at hentry
      obtain ⟨kept, hkept, heq⟩ := List.mem_map.mp hentry
      split at heq
      next => exact .inl heq.symm
      next => exact .inr (heq ▸ hkept)

def Rising (exchanges : List Exchange) : Prop :=
  exchanges.Pairwise fun first second => first.generation < second.generation

theorem launch_rising (hrising : Rising engine.exchanges)
    (hbound : ∀ exchange ∈ engine.exchanges, exchange.generation ≤
      engine.generations)
    (entry : InFlight κ γ) (now : Nat) :
    Rising (engine.launch now entry).exchanges := by
  simp only [launch, putEntry_exchanges]
  refine List.pairwise_append.mpr
    ⟨hrising.filter _, List.pairwise_singleton _ _, ?_⟩
  intro exchange hexchange latest hlatest
  rw [List.mem_singleton.mp hlatest]
  exact Nat.lt_succ_of_le (hbound exchange (List.mem_of_mem_filter hexchange))

structure Framed (questions : List Question) (entry : InFlight κ γ) : Prop where
  built : Message.buildQuery entry.question entry.messageId = .ok entry.query
  asked : entry.question ∈ questions

/-- An engine that is asked some questions only, with room for all their
answers. -/
structure Orderly (settings : Settings) (questions : List Question)
    (engine : Engine κ γ) :
    Prop where
  armed : engine.Armed
  settings_eq : engine.settings = settings
  rising : Rising engine.exchanges
  framed : ∀ entry ∈ engine.inFlight, Framed questions entry
  roomy : engine.cache.Roomy questions
  maxTtl : engine.cache.maxTtl = settings.maxTtl

variable {settings : Settings} {questions : List Question}

theorem create_orderly
    (hroom : questions.dedup.length ≤ settings.cacheMaxEntries)
    (ids : Nat → UInt16) :
    (create settings ids : Engine κ γ).Orderly settings questions where
  armed := create_armed settings ids
  settings_eq := rfl
  rising := List.Pairwise.nil
  framed := nofun
  roomy := AnswerCache.empty_roomy hroom settings.maxTtl
  maxTtl := rfl

inductive Descends (engine : Engine κ γ) (event : Event κ γ)
    (entry : InFlight κ γ) : Prop
  /-- There was an entry for the question before; its attempt goes on, or it
  makes a new one. -/
  | kept (old : InFlight κ γ) (hold : old ∈ engine.inFlight)
      (hquestion : entry.question = old.question)
      (hmessageId : entry.messageId = old.messageId)
      (hquery : entry.query = old.query)
      (hgeneration :
        entry.generation = old.generation ∨ engine.generations <
          entry.generation)
  | opened (caller : κ) (context : γ) (flags : Flags)
      (hevent : event = .resolve entry.question caller context flags)
      (hbuilt : Message.buildQuery entry.question entry.messageId =
        .ok entry.query)
      (hgeneration : engine.generations < entry.generation)

/-- A request may ask one of some questions only; other events may be
anything. -/
def Event.AsksOf (questions : List Question) : Event κ γ → Prop
  | .resolve question .. => question ∈ questions
  | _ => True

theorem Descends.framed {event : Event κ γ}
    (hdescends : Descends engine event entry) (hasks : event.AsksOf questions)
    (hframed : ∀ entry ∈ engine.inFlight, Framed questions entry) :
    Framed questions entry := by
  cases hdescends with
  | kept old hold hquestion hmessageId hquery =>
      obtain ⟨hbuilt, hasked⟩ := hframed old hold
      rw [← hquestion, ← hmessageId, ← hquery] at hbuilt
      exact ⟨hbuilt, hquestion ▸ hasked⟩
  | opened caller context flags hevent hbuilt =>
      subst hevent
      exact ⟨hbuilt, hasks⟩

section Events

variable [DecidableEq κ] {event : Event κ γ} {effect : Effect κ γ}

theorem Move.rising (harmed : engine.Armed)
    (hrising : Rising engine.exchanges) (hmove : engine.Move now event effect) :
    Rising effect.engine.exchanges := by
  have hbound : ∀ exchange ∈ engine.exchanges, exchange.generation ≤
      engine.generations :=
    fun exchange => harmed.generation_le
  cases hmove with
  | aside => exact hrising
  | joined => simpa [join] using hrising
  | opened question caller context flags cache query =>
      have hprepared : Rising (Engine.turned { engine with cache }).exchanges :=
        hrising
      exact launch_rising hprepared hbound _ now
  | cancelled => exact hrising
  | proceeded question generation ending entry hcurrent =>
      cases entry.sequel engine.settings ending with
      | again server protocol retriesDone =>
          have hrest : Rising (engine.afterEnd generation ending).exchanges :=
            hrising.filter _
          refine launch_rising hrest (fun exchange hexchange => ?_) _ now
          exact hbound exchange (List.mem_of_mem_filter hexchange)
      | answered answer => exact (hrising.filter _).filter _
  | stopped => exact List.Pairwise.nil

theorem Move.descends (hmove : engine.Move now event effect)
    (hentry : entry ∈ effect.engine.inFlight) :
    Descends engine event entry := by
  have hsame (hkept : entry ∈ engine.inFlight) : Descends engine event entry :=
    .kept entry hkept rfl rfl rfl (.inl rfl)
  cases hmove with
  | aside => exact hsame hentry
  | joined question caller context flags cache old _ hold =>
      rcases mem_putEntry hentry with rfl | hkept
      · exact .kept old (entry?_mem hold) rfl rfl rfl (.inl rfl)
      · exact hsame hkept
  | opened question caller context flags cache query _ _ hquery =>
      rcases mem_putEntry hentry with rfl | hkept
      · exact .opened caller context flags rfl hquery (Nat.lt_succ_self _)
      · exact hsame hkept
  | cancelled caller =>
      obtain ⟨old, hold, rfl⟩ := List.mem_map.mp hentry
      exact .kept old hold rfl rfl rfl (.inl rfl)
  | proceeded question generation ending old hcurrent =>
      have hold := entry?_mem (entry?_of_current? hcurrent).1
      cases hsequel : old.sequel engine.settings ending with
      | again server protocol retriesDone =>
          simp only [hsequel, proceed] at hentry
          rcases mem_putEntry hentry with rfl | hkept
          · exact .kept old hold rfl rfl rfl (.inr (Nat.lt_succ_self _))
          · exact hsame hkept
      | answered answer =>
          simp only [hsequel, proceed] at hentry
          exact hsame (List.mem_of_mem_filter hentry)
  | stopped => cases hentry

theorem Move.generations_le (hmove : engine.Move now event effect) :
    engine.generations ≤ effect.engine.generations := by
  cases hmove with
  | proceeded question generation ending entry =>
      cases entry.sequel engine.settings ending with
      | again server protocol retriesDone =>
          exact Nat.le_succ engine.generations
      | answered answer => exact Nat.le_refl engine.generations
  | opened => exact Nat.le_succ engine.generations
  | joined => simp [join]
  | _ => exact Nat.le_refl engine.generations

theorem perform_roomy (hroomy : engine.cache.Roomy questions)
    (hasked : ∀ entry ∈ engine.inFlight, entry.question ∈ questions)
    (now : Nat) (event : Event κ γ) :
    (engine.perform now event).engine.cache.Roomy questions := by
  by_cases hcompletes : ∃ answer, engine.Completes event answer
  · obtain ⟨answer, hcompletes⟩ := hcompletes
    rw [hcompletes.cache_eq]
    obtain ⟨question, generation, ending, entry, -, hcurrent, hsequel⟩ :=
      hcompletes
    apply hroomy.insert
    rw [InFlight.sequel_question hsequel]
    exact hasked entry (entry?_mem (entry?_of_current? hcurrent).1)
  · rcases cache_of_not_completes (not_exists.mp hcompletes) with
      hsame | ⟨question, hread⟩ | hcleared
    · exact hsame ▸ hroomy
    · exact hread ▸ hroomy.get now question
    · exact hcleared ▸ hroomy.clear

theorem Orderly.perform (horderly : engine.Orderly settings questions)
    (now : Nat) {event : Event κ γ} (hasks : event.AsksOf questions) :
    (engine.perform now event).engine.Orderly settings questions := by
  have hmove := perform_move engine now event
  exact {
    armed := horderly.armed.move hmove
    settings_eq := hmove.settings_eq.trans horderly.settings_eq
    rising := hmove.rising horderly.armed horderly.rising
    framed := fun entry hentry =>
      (hmove.descends hentry).framed hasks horderly.framed
    roomy :=
      perform_roomy horderly.roomy (fun entry hentry =>
        (horderly.framed entry hentry).asked) now event
    maxTtl := (perform_limits engine now event).1.trans horderly.maxTtl }

end Events

end DnsForwarder.Engine
