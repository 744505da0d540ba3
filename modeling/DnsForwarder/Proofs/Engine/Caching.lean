import DnsForwarder.Proofs.Cache
import DnsForwarder.Proofs.Engine.Run

/-! The cache of an engine along its events. Requests and look-ups take nothing
into it; only the end of an entry does. -/

namespace DnsForwarder

namespace Engine

variable {κ γ : Type}

variable {engine : Engine κ γ} {now : Nat} {kept : CacheEntry}

@[simp] theorem putEntry_cache (engine : Engine κ γ) (entry : InFlight κ γ) :
    (engine.putEntry entry).cache = engine.cache := by
  rw [putEntry]
  split <;> rfl

@[simp] theorem launch_cache (engine : Engine κ γ) (now : Nat)
    (entry : InFlight κ γ) :
    (engine.launch now entry).cache = engine.cache := by
  simp [launch, retire]

theorem lookup_cache (engine : Engine κ γ) (now : Nat) (question : Question) :
    (engine.lookup now question).1.cache =
      (engine.cache.get now question).1 := by
  obtain ⟨counters, hlookup, -⟩ := engine.lookup_eq now question
  rw [hlookup]

theorem Treatment.cache {question : Question} {caller : κ} {context : γ}
    {flags : Flags} {after : Engine κ γ}
    {resolution : Except Error (Resolution γ)}
    (htreatment : engine.Treatment now question caller context flags after
      resolution) :
    after.cache = engine.cache ∨
      after.cache = (engine.cache.get now question).1 := by
  have hconsulted : (engine.consulted now question flags).cache = engine.cache ∨
      (engine.consulted now question flags).cache =
      (engine.cache.get now question).1 := by
    cases hcached : flags.bypassCache <;> simp [consulted, hcached]
  cases htreatment with
  | unstarted => exact .inl rfl
  | _ => simpa [join, openEntry_eq, turned, countHit] using hconsulted

def Completes (engine : Engine κ γ) (event : Event κ γ) (answer : Answer) :
    Prop :=
  ∃ question generation ending entry, event =
    .ended question generation ending ∧
    engine.current? question generation = some entry ∧
    entry.sequel engine.settings ending = .answered answer

theorem Completes.unique {event : Event κ γ} {answer other : Answer}
    (hanswer : engine.Completes event answer)
    (hother : engine.Completes event other) :
    answer = other := by
  obtain ⟨question, generation, ending, entry, rfl, hcurrent, hsequel⟩ :=
    hanswer
  obtain ⟨question', generation', ending', entry', hevent, hcurrent',
    hsequel'⟩ := hother
  cases hevent
  cases hcurrent.symm.trans hcurrent'
  exact Sequel.answered.inj (hsequel.symm.trans hsequel')

section Events

variable [DecidableEq κ] {event : Event κ γ}

theorem Completes.cache_eq {answer : Answer}
    (hcompletes : engine.Completes event answer) :
    (engine.perform now event).engine.cache =
      (engine.cache.insert now answer).1 := by
  obtain ⟨question, generation, ending, entry, rfl, hcurrent, hsequel⟩ :=
    hcompletes
  simp only [perform, onEnd_of_current hcurrent, hsequel]
  rfl

/-- An event that completes nothing leaves the cache as it is, reads it or
clears it. -/
theorem cache_of_not_completes
    (hnone : ∀ answer, ¬engine.Completes event answer) :
    (engine.perform now event).engine.cache = engine.cache ∨
      (∃ question,
        (engine.perform now event).engine.cache =
          (engine.cache.get now question).1) ∨
      (engine.perform now event).engine.cache = engine.cache.clear := by
  cases event with
  | wait ms => exact .inl rfl
  | start => exact .inl (by unfold perform start; split_ifs <;> rfl)
  | resolve question caller context flags =>
      rcases (engine.resolve_treatment now question caller context
          flags).cache with hsame | hread
      · exact .inl hsame
      · exact .inr (.inl ⟨question, hread⟩)
  | lookup question =>
      exact .inr (.inl ⟨question, lookup_cache engine now question⟩)
  | cancel caller => exact .inl rfl
  | ended question generation ending =>
      refine .inl ?_
      cases hcurrent : engine.current? question generation with
      | none => simp only [perform, onEnd_of_stale hcurrent]
      | some entry =>
          simp only [perform, onEnd_of_current hcurrent]
          cases hsequel : entry.sequel engine.settings ending with
          | again server protocol retriesDone => exact launch_cache _ now _
          | answered answer =>
              exact absurd
                ⟨question, generation, ending, entry, rfl, hcurrent, hsequel⟩
                (hnone answer)
  | stop => exact .inr (.inr rfl)

theorem mem_of_not_completes (hnone : ∀ answer, ¬engine.Completes event answer)
    (hkept : kept ∈ (engine.perform now event).engine.cache.entries) :
    kept ∈ engine.cache.entries := by
  rcases cache_of_not_completes hnone with hsame | ⟨question, hread⟩ | hcleared
  · rwa [hsame] at hkept
  · rw [hread] at hkept
    exact AnswerCache.mem_get hkept
  · rw [hcleared] at hkept
    cases hkept

theorem perform_limits (engine : Engine κ γ) (now : Nat) (event : Event κ γ) :
    (engine.perform now event).engine.cache.maxTtl = engine.cache.maxTtl ∧
      (engine.perform now event).engine.cache.capacity =
        engine.cache.capacity := by
  by_cases hcompletes : ∃ answer, engine.Completes event answer
  · obtain ⟨answer, hcompletes⟩ := hcompletes
    rw [hcompletes.cache_eq, AnswerCache.insert_maxTtl,
      AnswerCache.insert_capacity]
    exact ⟨rfl, rfl⟩
  · rcases cache_of_not_completes (not_exists.mp hcompletes) with
      hsame | ⟨question, hread⟩ | hcleared
    · rw [hsame]
      exact ⟨rfl, rfl⟩
    · rw [hread, AnswerCache.get_maxTtl, AnswerCache.get_capacity]
      exact ⟨rfl, rfl⟩
    · rw [hcleared, AnswerCache.clear]
      exact ⟨rfl, rfl⟩

/-- What the cache holds after an event was there before, or it is the answer
that an entry ended with. -/
theorem perform_cache
    (hkept : kept ∈ (engine.perform now event).engine.cache.entries) :
    kept ∈ engine.cache.entries ∨
      ∃ question generation ending entry, event =
        .ended question generation ending ∧
        engine.current? question generation = some entry ∧
        entry.sequel engine.settings ending = .answered kept.answer ∧
        kept.answer.status.isCacheable := by
  by_cases hcompletes : ∃ answer, engine.Completes event answer
  · obtain ⟨answer, hcompletes⟩ := hcompletes
    rw [hcompletes.cache_eq] at hkept
    obtain ⟨question, generation, ending, entry, rfl, hcurrent, hsequel⟩ :=
      hcompletes
    rcases AnswerCache.mem_insert hkept with hold | ⟨rfl, hcacheable⟩
    · exact .inl hold
    · exact .inr ⟨question, generation, ending, entry, rfl, hcurrent,
        hsequel, hcacheable⟩
  · exact .inl (mem_of_not_completes (not_exists.mp hcompletes) hkept)

end Events

theorem proceed_started (engine : Engine κ γ) (now : Nat)
    (entry : InFlight κ γ) (sequel : Sequel) :
    (engine.proceed now entry sequel).1.started = engine.started := by
  cases sequel with
  | again server protocol retriesDone => simp [proceed]
  | answered answer => simp [proceed, settle, dropEntry, retire]

theorem Move.cleared [DecidableEq κ] {event : Event κ γ} {effect : Effect κ γ}
    (hmove : engine.Move now event effect) (hstarted : engine.started = true)
    (hstopped : effect.engine.started = false) :
    effect.engine.cache.entries = [] := by
  cases hmove with
  | aside event started cache counters resolution? found? hchange
    hresolution hspares =>
      rcases hchange with rfl | ⟨rfl, -⟩
      · exact absurd (hstarted.symm.trans hstopped) (by decide)
      · cases hstopped
  | proceeded question generation ending entry hcurrent =>
      simp [proceed_started, hstarted] at hstopped
  | stopped => rfl
  | _ => simp [join, openEntry_eq, turned, cancel, hstarted] at hstopped

end Engine

end DnsForwarder
