import DnsForwarder.Proofs.Cache.Access
import DnsForwarder.Proofs.Engine.Freshness

/-! What an engine tells about a cached answer: the time that it is kept for,
the answer itself in a look-up, and the answer to a request. The first of these
and the others agree at all times but the one at which the answer goes out of
date: it is not found any more then, and has no seconds left. -/

namespace DnsForwarder

/-- The remaining time and the answer are those of one entry that is not past
its end, and the answer is missing at the end itself. -/
theorem AnswerCache.views_cases (cache : AnswerCache) (now : Nat)
    (question : Question) :
    cache.remaining? now question = none ∧ (cache.get now question).2 = none ∨
      ∃ kept ∈ cache.entries, kept.question = question ∧ now ≤ kept.expires ∧
        cache.remaining? now question = some ((kept.expires - now) / 1000) ∧
        (cache.get now question).2 =
          if now < kept.expires then some kept.answer else none := by
  rw [get_snd, remaining?]
  cases hfind : cache.find? question with
  | none => exact .inl ⟨rfl, rfl⟩
  | some kept =>
      obtain ⟨hmem, hquestion⟩ := mem_of_find? hfind
      by_cases hpast : now ≤ kept.expires
      · refine .inr ⟨kept, hmem, hquestion, hpast, by simp [hpast], ?_⟩
        by_cases hlive : now < kept.expires <;>
          simp [Option.filter_some, CacheEntry.isLive, hlive]
      · have hlive : ¬now < kept.expires := by omega
        exact .inl ⟨by simp [hpast],
          by simp [Option.filter_some, CacheEntry.isLive, hlive]⟩

namespace Engine

variable {κ γ : Type}

theorem lookup_snd (engine : Engine κ γ) (now : Nat) (question : Question) :
    (engine.lookup now question).2 = (engine.cache.get now question).2 := rfl

section Requests

variable {engine : Engine κ γ} {now : Nat} {question : Question}
  {answer : Answer}

theorem resolve_of_found (hstarted : engine.started = true)
    (hfound : (engine.lookup now question).2 = some answer) (caller : κ)
    (context : γ) :
    (engine.resolve now question caller context {}).2 =
      .ok (.ready answer context) := by
  obtain ⟨counters, hlookup, -⟩ := engine.lookup_eq now question
  rw [lookup_snd] at hfound
  simp [resolve, hstarted, hlookup, hfound]

/-- A request without flags is answered at once just when a look-up finds the
answer. -/
theorem resolve_ready_iff (hstarted : engine.started = true) (caller : κ)
    {context back : γ} :
    (engine.resolve now question caller context {}).2 =
      .ok (.ready answer back) ↔
      (engine.lookup now question).2 = some answer ∧ back = context := by
  constructor
  · intro hready
    rcases resolve_ready_cases hready with ⟨hcacheOnly, -⟩ | ⟨-, hfound⟩
    · cases hcacheOnly
    · rw [resolve_of_found hstarted hfound] at hready
      cases hready
      exact ⟨hfound, rfl⟩
  · rintro ⟨hfound, rfl⟩
    exact resolve_of_found hstarted hfound caller back

end Requests

def Step.expiry (step : Step κ γ) (maxTtl : UInt32) (answer : Answer) : Nat :=
  step.now + (min answer.ttl maxTtl).toNat * 1000

section Runs

variable [DecidableEq κ] (settings : Settings) (ids : Nat → UInt16)
  (events : List (Event κ γ))

/-- An engine tells nothing about a question, or what it tells is about the
answer that was stored last since it started: the whole seconds until that is
out of date, and the answer itself unless this moment has come. A request on a
running engine is answered at once just when a look-up finds the answer, and to
tell the seconds leaves the cache as it is. -/
theorem views_agree_until_expiry (question : Question) :
    let watched := Watched.run notePeriod [] settings ids events
    let engine := watched.engine
    let now := watched.now
    let seconds? := engine.cachedTtl? now question
    let found? := (engine.lookup now question).2
    (seconds? = none ∧ found? = none ∨
      ∃ source answer, LastStored watched.notes source answer ∧
      answer.question = question ∧ now ≤ source.expiry settings.maxTtl answer ∧
        seconds? = some ((source.expiry settings.maxTtl answer - now) / 1000) ∧
        found? = if now < source.expiry settings.maxTtl answer then some answer
        else none) ∧
    (∀ caller context answer back,
      ({ engine with started := true }.resolve now question caller
        context {}).2 = .ok (.ready answer back) ↔
        found? = some answer ∧ back = context) ∧
    engine.cache.perform now (.remaining question) =
    (engine.cache, .remaining seconds?) := by
  intro watched engine now seconds? found?
  refine ⟨?_, ?_, rfl⟩
  · have hdated : Dated settings engine now watched.notes :=
      run_dated settings ids events
    rcases engine.cache.views_cases now question with
      hnone | ⟨kept, hmem, hquestion, hpast, hseconds, hfound⟩
    · exact .inl hnone
    · obtain ⟨source, hlast, hexpires⟩ := hdated.kept kept hmem
      rw [hexpires] at hpast hseconds hfound
      exact .inr ⟨source, kept.answer, hlast, hquestion, hpast,
        hseconds, hfound⟩
  · intro caller context answer back
    exact resolve_ready_iff rfl caller

/-- The address is asked for and kept for a minute, and the minute passes. -/
def wholeMinuteEvents : List (Event Unit Unit) :=
  minuteEvents ++ [.wait 1]

/-- At the moment at which the address goes out of date, it has no seconds left,
and neither a look-up nor a request finds it. -/
theorem expired_address_has_time_left :
    let settings := Settings.withServer (.v4 ⟨192, 0, 2, 1⟩ 53)
    let watched :=
      Watched.run notePeriod [] settings (fun _ => 0) wholeMinuteEvents
    let engine := watched.engine
    let now := watched.now
    engine.started = true ∧ engine.cachedTtl? now addressQuestion = some 0 ∧
      (engine.lookup now addressQuestion).2 = none ∧
      ∀ answer, (engine.resolve now addressQuestion () () {}).2 ≠
      .ok (.ready answer ()) := by
  intro settings watched engine now
  have hstarted : engine.started = true := by decide +kernel
  have hfound : (engine.lookup now addressQuestion).2 = none :=
    by decide +kernel
  refine ⟨hstarted, by decide +kernel, hfound, fun answer hready => ?_⟩
  cases hfound.symm.trans ((resolve_ready_iff hstarted ()).mp hready).1

end Runs

end Engine

end DnsForwarder
