import DnsForwarder.Proofs.Engine.Provenance

/-! How old the answers are that an engine gives from its cache. Such an answer
is the last one that was stored for its question since the engine started, and
it is younger than each of its lifetimes. Answers that have no lifetime leave
the one before them in its place. -/

namespace DnsForwarder

namespace Answer

/-- At an age in milliseconds, an answer has outlived neither what its records
say nor what the settings allow. -/
structure Fresh (settings : Settings) (answer : Answer) (age : Nat) : Prop where
  capped : age < settings.maxTtl.toNat * 1000
  records : ∀ record ∈ answer.records, age < record.ttl.toNat * 1000
  negative : answer.status.isNegative ∨ answer.records = [] →
    age < settings.negativeTtl.toNat * 1000

variable {records : List Record} {age : Nat}

theorem lt_minTtl_iff {ttl : UInt32} (hmin : minTtl? records = some ttl) :
    age < ttl.toNat * 1000 ↔ ∀ record ∈ records, age <
      record.ttl.toNat * 1000 := by
  obtain ⟨hmem, hleast⟩ := List.min?_eq_some_iff.mp hmin
  obtain ⟨shortest, hshortest, rfl⟩ := List.mem_map.mp hmem
  constructor
  · intro hage record hrecord
    have hle :=
      UInt32.le_iff_toNat_le.mp (hleast _ (List.mem_map_of_mem hrecord))
    exact Nat.lt_of_lt_of_le hage (Nat.mul_le_mul_right 1000 hle)
  · intro hage
    exact hage shortest hshortest

theorem lt_lifetime_iff {status : Status} {negativeTtl : UInt32} :
    age < (lifetime status records negativeTtl).toNat * 1000 ↔
      (∀ record ∈ records, age < record.ttl.toNat * 1000) ∧
        (status.isNegative ∨ records = [] →
          age < negativeTtl.toNat * 1000) := by
  cases hmin : minTtl? records with
  | none =>
      have hempty : records = [] := by simpa [minTtl?] using hmin
      subst hempty
      simp [lifetime, hmin]
  | some ttl =>
      have hsome : records ≠ [] := by
        rintro rfl
        cases hmin
      by_cases hnegative : status.isNegative
      · simp only [lifetime, hmin, hnegative, if_true, ← lt_minTtl_iff hmin,
          UInt32.toNat_min, true_or, true_implies]
        omega
      · simp [lifetime, hmin, hnegative, hsome, ← lt_minTtl_iff hmin]

theorem fresh_iff {settings : Settings} {answer : Answer}
    (httl : answer.ttl =
      lifetime answer.status answer.records settings.negativeTtl) :
    answer.Fresh settings age ↔
      age < (min answer.ttl settings.maxTtl).toNat * 1000 := by
  have hlifetime : age < answer.ttl.toNat * 1000 ↔ _ := httl ▸ lt_lifetime_iff
  have hmin : age < (min answer.ttl settings.maxTtl).toNat * 1000 ↔
      age < answer.ttl.toNat * 1000 ∧ age < settings.maxTtl.toNat * 1000 := by
    rw [UInt32.toNat_min, ← Nat.mul_min_mul_right, Nat.lt_min]
  rw [hmin, hlifetime]
  constructor
  · rintro ⟨hcapped, hrecords, hnegative⟩
    exact ⟨⟨hrecords, hnegative⟩, hcapped⟩
  · rintro ⟨⟨hrecords, hnegative⟩, hcapped⟩
    exact ⟨hcapped, hrecords, hnegative⟩

end Answer

namespace Engine

variable {κ γ : Type}

theorem Completes.ttl_eq {engine : Engine κ γ} {event : Event κ γ}
    {answer : Answer} (hcompletes : engine.Completes event answer)
    (hcacheable : answer.status.isCacheable) :
    answer.ttl =
      Answer.lifetime answer.status answer.records
        engine.settings.negativeTtl := by
  obtain ⟨question, generation, ending, entry, rfl, -, hsequel⟩ := hcompletes
  obtain ⟨result, rfl, hjudge⟩ := InFlight.sequel_cacheable hsequel hcacheable
  obtain ⟨bytes, response, -, -, -, -, hverdict⟩ := judge_settled hjudge
  obtain ⟨-, rfl⟩ := Response.verdict_settled hverdict
  rfl

def Step.Completes (step : Step κ γ) (answer : Answer) : Prop :=
  step.before.Completes step.event answer

def Step.Stores (step : Step κ γ) (answer : Answer) : Prop :=
  step.Completes answer ∧ (step.before.cache.insert step.now answer).2 = true

/-- A step gives out an answer that the cache held. A request that may not ask
the servers is refused when there is none. -/
def Step.Serves (step : Step κ γ) (question : Question) (answer : Answer) :
    Prop :=
  step.event = .lookup question ∧ step.effect.found? = some answer ∨
    ∃ caller context flags back, step.event =
    .resolve question caller context flags ∧
      step.effect.resolution? = some (.ok (.ready answer back)) ∧
      answer ≠ refusal question

/-- A step of a period stored an answer, and none after it stored another for
the question. -/
structure LastStored (period : List (Step κ γ)) (source : Step κ γ)
    (answer : Answer) : Prop where
  started : source.before.started
  stores : source.Stores answer
  last : ∃ earlier later, period = earlier ++ source :: later ∧
    ∀ step ∈ later, ∀ other, step.Stores other →
    other.question ≠ answer.question

theorem LastStored.append {period : List (Step κ γ)} {source : Step κ γ}
    {answer : Answer} (hlast : LastStored period source answer)
    {step : Step κ γ}
    (hstep : ∀ other, step.Stores other → other.question ≠ answer.question) :
    LastStored (period ++ [step]) source answer := by
  obtain ⟨earlier, later, rfl, hlater⟩ := hlast.last
  refine ⟨hlast.started, hlast.stores, earlier, later ++ [step], by simp, ?_⟩
  intro after hafter
  rcases List.mem_append.mp hafter with hold | hnew
  · exact hlater after hold
  · exact List.mem_singleton.mp hnew ▸ hstep

structure Dated (settings : Settings) (engine : Engine κ γ) (now : Nat)
    (period : List (Step κ γ)) : Prop where
  settings_eq : engine.settings = settings
  maxTtl_eq : engine.cache.maxTtl = settings.maxTtl
  steps : ∀ step ∈ period, step.now ≤ now ∧ step.before.settings = settings ∧
    step.before.cache.maxTtl = settings.maxTtl
  kept : ∀ kept ∈ engine.cache.entries, ∃ source,
    LastStored period source kept.answer ∧
    kept.expires =
    source.now + (min kept.answer.ttl settings.maxTtl).toNat * 1000

theorem Event.le_clock (now : Nat) (event : Event κ γ) :
    now ≤ event.clock now := by
  cases event with
  | wait ms => exact Nat.le_add_right now ms
  | _ => exact Nat.le_refl now

theorem of_mem_notePeriod {period : List (Step κ γ)} {step other : Step κ γ}
    (hother : other ∈ notePeriod period step) :
    other ∈ period ∨ other = step := by
  rw [notePeriod] at hother
  split at hother
  · exact (List.mem_append.mp hother).imp_right List.mem_singleton.mp
  · exact .inr (List.mem_singleton.mp hother)

/-- What the cache holds after a step was there before and was not replaced, or
the step stored it. -/
theorem kept_cases [DecidableEq κ] {engine : Engine κ γ} {now : Nat}
    {event : Event κ γ} {kept : CacheEntry}
    (hkept : kept ∈ (engine.perform now event).engine.cache.entries) :
    let step : Step κ γ := ⟨engine, now, event, engine.perform now event⟩
    kept ∈ engine.cache.entries ∧
        (∀ other, step.Stores other → other.question ≠ kept.answer.question) ∨
      step.Stores kept.answer ∧
        kept.expires =
        now + (engine.cache.lifetime kept.answer).toNat * 1000 := by
  intro step
  by_cases hcompletes : ∃ answer, engine.Completes event answer
  · obtain ⟨answer, hcompletes⟩ := hcompletes
    rw [hcompletes.cache_eq] at hkept
    rcases AnswerCache.mem_insert_cases hkept with
      ⟨hmem, hdifferent⟩ | ⟨hadmits, rfl⟩
    · refine .inl ⟨hmem, fun other hstores => ?_⟩
      -- An event completes one answer at most, so what it stores is what was
      -- inserted.
      rw [Step.Stores, AnswerCache.insert_snd] at hstores
      obtain rfl := hcompletes.unique hstores.1
      exact Ne.symm (hdifferent hstores.2)
    · refine .inr ⟨⟨hcompletes, ?_⟩, rfl⟩
      rwa [AnswerCache.insert_snd]
  · have hnone := not_exists.mp hcompletes
    exact .inl ⟨mem_of_not_completes hnone hkept,
      fun other hstores => absurd hstores.1 (hnone other)⟩

namespace Dated

variable {settings : Settings} {engine : Engine κ γ} {now : Nat}
  {period : List (Step κ γ)}

/-- The cache takes what may be kept and is fresh when it comes in. -/
theorem stores_iff (hdated : Dated settings engine now period)
    {step : Step κ γ} (hstep : step ∈ period) {answer : Answer} :
    step.Stores answer ↔
      step.Completes answer ∧ answer.status.isCacheable ∧
        answer.Fresh settings 0 := by
  obtain ⟨-, hsettings, hmaxTtl⟩ := hdated.steps step hstep
  rw [Step.Stores, AnswerCache.insert_snd, AnswerCache.admits, Bool.and_eq_true]
  refine and_congr_right fun hcompletes => and_congr_right fun hcacheable => ?_
  have httl := hsettings ▸ hcompletes.ttl_eq hcacheable
  rw [Answer.fresh_iff httl, AnswerCache.lifetime, hmaxTtl, bne_iff_ne, Ne,
    ← UInt32.toNat_inj]
  simp only [UInt32.toNat_zero]
  omega

theorem create (settings : Settings) (ids : Nat → UInt16) :
    Dated settings (.create settings ids : Engine κ γ) 0 [] where
  settings_eq := rfl
  maxTtl_eq := rfl
  steps _ hstep := absurd hstep List.not_mem_nil
  kept _ hkept := absurd hkept List.not_mem_nil

theorem fresh (hdated : Dated settings engine now period)
    {question : Question} {answer : Answer}
    (hget : (engine.cache.get now question).2 = some answer) :
    answer.question = question ∧ ∃ source, LastStored period source answer ∧
      source.now ≤ now ∧ answer.Fresh settings (now - source.now) := by
  obtain ⟨kept, hmem, rfl, hquestion, hlive⟩ := AnswerCache.get_live hget
  obtain ⟨source, hlast, hexpires⟩ := hdated.kept kept hmem
  refine ⟨hquestion, source, hlast, ?_⟩
  obtain ⟨earlier, later, hperiod, -⟩ := hlast.last
  obtain ⟨hnow, hsettings, -⟩ := hdated.steps source (by simp [hperiod])
  obtain ⟨hcompletes, hcacheable, -⟩ :=
    (hdated.stores_iff (by simp [hperiod])).mp hlast.stores
  have httl := hsettings ▸ hcompletes.ttl_eq hcacheable
  refine ⟨hnow, (Answer.fresh_iff httl).mpr ?_⟩
  omega

variable [DecidableEq κ]

theorem next (hdated : Dated settings engine now period)
    (hsourced : Sourced engine period) (event : Event κ γ) :
    let effect := engine.perform now event
    Dated settings effect.engine (event.clock now)
      (notePeriod period ⟨engine, now, event, effect⟩) := by
  intro effect
  let step : Step κ γ := ⟨engine, now, event, effect⟩
  constructor
  · exact (engine.perform_move now event).settings_eq.trans hdated.settings_eq
  · exact (perform_limits engine now event).1.trans hdated.maxTtl_eq
  · intro other hother
    rcases of_mem_notePeriod hother with hold | rfl
    · obtain ⟨hnow, hrest⟩ := hdated.steps other hold
      exact ⟨Nat.le_trans hnow (event.le_clock now), hrest⟩
    · exact ⟨event.le_clock now, hdated.settings_eq, hdated.maxTtl_eq⟩
  · intro kept hkept
    -- An engine at rest keeps nothing, so the period goes on.
    cases hstarted : engine.started with
    | false =>
        rw [hsourced.still_idle hstarted event] at hkept
        cases hkept
    | true =>
        rw [notePeriod, if_pos hstarted]
        rcases kept_cases hkept with ⟨hmem, hothers⟩ | ⟨hstores, hexpires⟩
        · obtain ⟨source, hlast, hexpires⟩ := hdated.kept kept hmem
          exact ⟨source, hlast.append hothers, hexpires⟩
        · refine ⟨step, ⟨hstarted, hstores, period, [], rfl, by simp⟩, ?_⟩
          rw [hexpires, AnswerCache.lifetime, hdated.maxTtl_eq]

theorem serves (hdated : Dated settings engine now period) {event : Event κ γ}
    {question : Question} {answer : Answer}
    (hserves : Step.Serves ⟨engine, now, event, engine.perform now event⟩
      question answer) :
    answer.question = question ∧ ∃ source, LastStored period source answer ∧
      source.now ≤ now ∧ answer.Fresh settings (now - source.now) := by
  apply hdated.fresh
  rcases hserves with ⟨rfl, hfound⟩ | ⟨caller, context, flags, back, rfl,
    hready, hserved⟩
  · obtain ⟨counters, hlookup, -⟩ := lookup_eq engine now question
    simpa only [perform, hlookup] using hfound
  · rcases resolve_ready_cases (Option.some.inj hready) with
      ⟨-, hrefusal⟩ | ⟨-, hget⟩
    · exact absurd hrefusal hserved
    · exact hget

end Dated

section Runs

variable [DecidableEq κ] (settings : Settings) (ids : Nat → UInt16)
  (events : List (Event κ γ))

theorem run_dated :
    let watched := Watched.run notePeriod [] settings ids events
    Dated settings watched.engine watched.now watched.notes := by
  let motive (watched : Watched κ γ (List (Step κ γ))) : Prop :=
    Sourced watched.engine watched.notes ∧
      Dated settings watched.engine watched.now watched.notes
  have hrun : motive (Watched.run notePeriod [] settings ids events) := by
    refine Watched.run_invariant motive ?_ ?_ events
    · exact ⟨.create settings ids, .create settings ids⟩
    · rintro watched event ⟨hsourced, hdated⟩
      exact ⟨hsourced.next event, hdated.next hsourced event⟩
  exact hrun.2

/-- What an engine gives from its cache was stored by the last step that stored
an answer to the question since the engine started, and since then less time has
passed than the largest lifetime allowed, than the lifetime of any of its
records and, for an answer that something does not exist or one without records,
than the lifetime of such answers. -/
theorem served_answers_are_fresh (event : Event κ γ) (question : Question)
    (answer : Answer) :
    let watched := Watched.run notePeriod [] settings ids events
    (watched.step event).Serves question answer →
      answer.question = question ∧
      ∃ source, LastStored watched.notes source answer ∧
        source.now ≤ watched.now ∧
        answer.Fresh settings (watched.now - source.now) := by
  intro watched hserves
  exact (run_dated settings ids events).serves hserves

def addressResponse (ttl host : UInt8) : Octets :=
  [ 0, 0, 0x81, 0x80, 0, 1, 0, 1, 0, 0, 0, 0
  , 7, 0x65, 0x78, 0x61, 0x6d, 0x70, 0x6c, 0x65, 3, 0x63, 0x6f, 0x6d,
    0, 0, 1, 0, 1
  , 0xc0, 12, 0, 1, 0, 1, 0, 0, 0, ttl, 0, 4, 192, 0, 2, host ]

def addressQuestion : Question :=
  ⟨.a, .name "example.com"⟩

def addressAnswer (ttl host : UInt8) : Answer :=
  .ofRecords .ok 0 addressQuestion
    [⟨"example.com", ttl.toUInt32, .a ⟨192, 0, 2, host⟩⟩] 300

/-- The address is asked for and kept for a minute, and almost a minute
passes. -/
def minuteEvents : List (Event Unit Unit) :=
  [ .start
  , .resolve addressQuestion () () {}
  , .ended addressQuestion 1 (.result (.ok (addressResponse 60 1)))
  , .wait 59999 ]

theorem served_before_the_minute_is_over :
    let settings := Settings.withServer (.v4 ⟨192, 0, 2, 1⟩ 53)
    let watched := Watched.run notePeriod [] settings (fun _ => 0) minuteEvents
    (watched.step (.lookup addressQuestion)).Serves addressQuestion
    (addressAnswer 60 1) ∧
      ∃ source, LastStored watched.notes source (addressAnswer 60 1) ∧
        source.now ≤ watched.now ∧
        (addressAnswer 60 1).Fresh settings (watched.now - source.now) := by
  intro settings watched
  have hserves :
      (watched.step (.lookup addressQuestion)).Serves addressQuestion
        (addressAnswer 60 1) :=
    .inl ⟨rfl, by decide +kernel⟩
  exact ⟨hserves, (served_answers_are_fresh settings (fun _ => 0) minuteEvents
    (.lookup addressQuestion) addressQuestion (addressAnswer 60 1) hserves).2⟩

/-- An answer from the cache may be older than another that came for its
question since, but only than one that had no lifetime when it came. -/
theorem superseding_answers_have_no_lifetime (event : Event κ γ)
    (question : Question) (answer : Answer) :
    let watched := Watched.run notePeriod [] settings ids events
    (watched.step event).Serves question answer →
      answer.question = question ∧ ∃ earlier source later,
        watched.notes = earlier ++ source :: later ∧ source.Completes answer ∧
        ∀ step ∈ later, ∀ other, step.Completes other →
        other.question = question →
          other.status ∈ [Status.ok, .noData, .noDomain] →
          ¬other.Fresh settings 0 := by
  intro watched hserves
  have hdated := run_dated settings ids events
  obtain ⟨hquestion, source, hlast, -⟩ := hdated.serves hserves
  obtain ⟨earlier, later, hperiod, hlater⟩ := hlast.last
  refine ⟨hquestion, earlier, source, later, hperiod, hlast.stores.1, ?_⟩
  intro step hstep other hcompletes hsame hstatus hfresh
  have hmem : step ∈ watched.notes :=
    hperiod ▸ List.mem_append_right _ (List.mem_cons_of_mem _ hstep)
  have hstores := (hdated.stores_iff hmem).mpr
    ⟨hcompletes, Status.isCacheable_iff.mpr hstatus, hfresh⟩
  exact hlater step hstep other hstores (hsame.trans hquestion.symm)

/-- While an address is kept, the servers are asked for it again, and the new
address has no lifetime. -/
def supersededEvents : List (Event Unit Unit) :=
  [ .start
  , .resolve addressQuestion () () {}
  , .ended addressQuestion 1 (.result (.ok (addressResponse 60 1)))
  , .resolve addressQuestion () () { bypassCache := true }
  , .ended addressQuestion 2 (.result (.ok (addressResponse 0 2))) ]

/-- The requests get the first answer and then the second one, and a look-up
after that finds the first one again. -/
theorem superseded_answer_is_found :
    let settings := Settings.withServer (.v4 ⟨192, 0, 2, 1⟩ 53)
    let watched :=
      Watched.run notePeriod [] settings (fun _ => 0) supersededEvents
    (watched.notes.map fun step => step.effect.deliveries.map Delivery.answer) =
        [[], [], [addressAnswer 60 1], [], [addressAnswer 0 2]] ∧
      (watched.step (.lookup addressQuestion)).effect.found? =
      some (addressAnswer 60 1) := by
  decide +kernel

theorem superseding_address_has_no_lifetime :
    let settings := Settings.withServer (.v4 ⟨192, 0, 2, 1⟩ 53)
    let watched :=
      Watched.run notePeriod [] settings (fun _ => 0) supersededEvents
    (watched.step (.lookup addressQuestion)).Serves addressQuestion
    (addressAnswer 60 1) ∧ ∃ earlier source later,
        watched.notes = earlier ++ source :: later ∧
        source.Completes (addressAnswer 60 1) ∧
        ∀ step ∈ later, ∀ other, step.Completes other →
        other.question = addressQuestion →
          other.status ∈ [Status.ok, .noData, .noDomain] →
          ¬other.Fresh settings 0 := by
  intro settings watched
  have hserves :
      (watched.step (.lookup addressQuestion)).Serves addressQuestion
        (addressAnswer 60 1) :=
    .inl ⟨rfl, by decide +kernel⟩
  exact ⟨hserves,
    (superseding_answers_have_no_lifetime settings (fun _ => 0) supersededEvents
    (.lookup addressQuestion) addressQuestion (addressAnswer 60 1) hserves).2⟩

end Runs

end Engine

end DnsForwarder
