import DnsForwarder.Proofs.Engine.Run

/-! The attempts of an engine. Between two events each entry has one exchange
and one alarm, both of its current attempt, and there are no others; attempts
are numbered through, across entries and restarts. -/

namespace DnsForwarder

def InFlight.exchange {κ γ : Type} (entry : InFlight κ γ) : Exchange :=
  ⟨entry.generation, entry.question, entry.server, entry.protocol, entry.query⟩

def InFlight.attempt {κ γ : Type} (entry : InFlight κ γ) : Nat × Question :=
  (entry.generation, entry.question)

def Alarm.attempt (alarm : Alarm) : Nat × Question :=
  (alarm.generation, alarm.question)

namespace Engine

variable {κ γ : Type} {engine : Engine κ γ} {entry : InFlight κ γ}
  {entries others : List (InFlight κ γ)}

/-- What is outstanding is one exchange and one alarm for each of the entries,
of its current attempt. -/
structure Serves (engine : Engine κ γ) (entries : List (InFlight κ γ)) :
    Prop where
  keyed : (entries.map InFlight.question).Nodup
  exchanges : engine.exchanges.Perm (entries.map InFlight.exchange)
  alarms : (engine.alarms.map Alarm.attempt).Perm (entries.map InFlight.attempt)
  distinct : (entries.map InFlight.generation).Nodup
  positive : ∀ entry ∈ entries, 0 < entry.generation
  bounded : ∀ entry ∈ entries, entry.generation ≤ engine.generations

namespace Serves

theorem perm (hserves : engine.Serves entries) (hperm : entries.Perm others) :
    engine.Serves others where
  keyed := (hperm.map _).nodup_iff.mp hserves.keyed
  exchanges := hserves.exchanges.trans (hperm.map _)
  alarms := hserves.alarms.trans (hperm.map _)
  distinct := (hperm.map _).nodup_iff.mp hserves.distinct
  positive entry hentry := hserves.positive entry (hperm.mem_iff.mpr hentry)
  bounded entry hentry := hserves.bounded entry (hperm.mem_iff.mpr hentry)

theorem of_map_eq (hserves : engine.Serves entries)
    (hquestion : others.map InFlight.question = entries.map InFlight.question)
    (hexchange : others.map InFlight.exchange = entries.map InFlight.exchange) :
    engine.Serves others := by
  have hview {β : Type} (view : Exchange → β) :
      others.map (view ∘ InFlight.exchange) =
        entries.map (view ∘ InFlight.exchange) := by
    rw [← List.map_map, hexchange, List.map_map]
  have hattempt : others.map InFlight.attempt = entries.map InFlight.attempt :=
    hview fun exchange => (exchange.generation, exchange.question)
  have hgeneration : others.map InFlight.generation =
      entries.map InFlight.generation :=
    hview Exchange.generation
  have hbound (property : Nat → Prop)
      (hall : ∀ entry ∈ entries, property entry.generation) :
      ∀ other ∈ others, property other.generation := by
    intro other hother
    have hmem : other.generation ∈ entries.map InFlight.generation :=
      hgeneration ▸ List.mem_map_of_mem hother
    obtain ⟨entry, hentry, heq⟩ := List.mem_map.mp hmem
    exact heq ▸ hall entry hentry
  exact {
    keyed := hquestion ▸ hserves.keyed
    exchanges := hexchange ▸ hserves.exchanges
    alarms := hattempt ▸ hserves.alarms
    distinct := hgeneration ▸ hserves.distinct
    positive := hbound (0 < ·) hserves.positive
    bounded := hbound (· ≤ engine.generations) hserves.bounded }

theorem generation_ne (hserves : engine.Serves (entry :: others)) :
    ∀ other ∈ others, other.generation ≠ entry.generation := by
  intro other hother heq
  have hdistinct := hserves.distinct
  rw [List.map_cons, List.nodup_cons, ← heq] at hdistinct
  exact hdistinct.1 (List.mem_map_of_mem hother)

theorem retire_eq {generation : Nat} (hserves : engine.Serves entries)
    (hother : ∀ entry ∈ entries, entry.generation ≠ generation) :
    engine.retire generation = engine := by
  have hexchanges :
      engine.exchanges.filter (fun exchange =>
        exchange.generation != generation) = engine.exchanges := by
    rw [List.filter_eq_self]
    intro exchange hexchange
    obtain ⟨entry, hentry, rfl⟩ :=
      List.mem_map.mp (hserves.exchanges.mem_iff.mp hexchange)
    simpa [InFlight.exchange] using hother entry hentry
  have halarms :
      engine.alarms.filter (fun alarm => alarm.generation != generation) =
      engine.alarms := by
    rw [List.filter_eq_self]
    intro alarm halarm
    obtain ⟨entry, hentry, heq⟩ :=
      List.mem_map.mp (hserves.alarms.mem_iff.mp (List.mem_map_of_mem halarm))
    have hgeneration : entry.generation = alarm.generation :=
      congrArg Prod.fst heq
    simpa [← hgeneration] using hother entry hentry
  simp [retire, hexchanges, halarms]

theorem retire (hserves : engine.Serves (entry :: others)) :
    (engine.retire entry.generation).Serves others := by
  have hothers := hserves.generation_ne
  have hkeep :
      others.filter (fun other => other.generation != entry.generation) =
      others := by
    rw [List.filter_eq_self]
    intro other hother
    simpa using hothers other hother
  have hexchanges := hserves.exchanges.filter
    (fun exchange => exchange.generation != entry.generation)
  have halarms :=
    hserves.alarms.filter (fun attempt => attempt.1 != entry.generation)
  exact {
    keyed := (List.nodup_cons.mp hserves.keyed).2
    exchanges := by
      simpa [Engine.retire, List.filter_map, Function.comp_def,
        InFlight.exchange, hkeep] using hexchanges
    alarms := by
      simpa [Engine.retire, List.filter_map, Function.comp_def,
        InFlight.attempt, Alarm.attempt, hkeep] using halarms
    distinct := (List.nodup_cons.mp hserves.distinct).2
    positive := fun other hother =>
      hserves.positive other (List.mem_cons_of_mem _ hother)
    bounded := fun other hother =>
      hserves.bounded other (List.mem_cons_of_mem _ hother) }

theorem launch (hserves : engine.Serves others)
    (hquestion : ∀ other ∈ others, other.question ≠ entry.question)
    (hgeneration : ∀ other ∈ others, other.generation ≠ entry.generation)
    (now : Nat) :
    (engine.launch now entry).Serves
      ({ entry with generation := engine.generations + 1 } :: others) := by
  have hnew : ∀ other ∈ others, other.generation ≠ engine.generations + 1 := by
    intro other hother
    have := hserves.bounded other hother
    omega
  simp only [Engine.launch, hserves.retire_eq hgeneration]
  constructor
  · refine List.nodup_cons.mpr ⟨?_, hserves.keyed⟩
    rw [List.mem_map]
    rintro ⟨other, hother, heq⟩
    exact hquestion other hother heq
  · simp only [putEntry_exchanges]
    exact (List.perm_append_singleton _ _).trans (hserves.exchanges.cons _)
  · simp only [putEntry_alarms, List.map_append]
    exact (List.perm_append_singleton _ _).trans (hserves.alarms.cons _)
  · refine List.nodup_cons.mpr ⟨?_, hserves.distinct⟩
    rw [List.mem_map]
    rintro ⟨other, hother, heq⟩
    exact hnew other hother heq
  · intro other hother
    rcases List.mem_cons.mp hother with rfl | hother
    · exact Nat.succ_pos _
    · exact hserves.positive other hother
  · intro other hother
    rcases List.mem_cons.mp hother with rfl | hother
    · exact Nat.le_refl _
    · exact Nat.le_succ_of_le (hserves.bounded other hother)

end Serves

/-- Between two events every entry has its attempt and nothing else is
outstanding; an engine that is not started has no entries. -/
structure Armed (engine : Engine κ γ) : Prop where
  serves : engine.Serves engine.inFlight
  idle : engine.started = false → engine.inFlight = []

theorem Armed.keyed (harmed : engine.Armed) : engine.Keyed :=
  harmed.serves.keyed

theorem create_armed (settings : Settings) (ids : Nat → UInt16) :
    (create settings ids : Engine κ γ).Armed := by
  refine ⟨?_, fun _ => rfl⟩
  constructor <;> simp [create]

theorem Serves.congr {changed : Engine κ γ} (hserves : engine.Serves entries)
    (hexchanges : changed.exchanges = engine.exchanges)
    (halarms : changed.alarms = engine.alarms)
    (hgenerations : changed.generations = engine.generations) :
    changed.Serves entries where
  keyed := hserves.keyed
  exchanges := hexchanges ▸ hserves.exchanges
  alarms := halarms ▸ hserves.alarms
  distinct := hserves.distinct
  positive := hserves.positive
  bounded := hgenerations ▸ hserves.bounded

namespace Armed

theorem join (harmed : engine.Armed) (hstarted : engine.started = true)
    {question : Question} (hentry : engine.entry? question = some entry)
    (waiter : Waiter κ γ) :
    (engine.join entry waiter).Armed := by
  obtain ⟨front, back, hsplit⟩ := harmed.keyed.split hentry
  constructor
  · rw [hsplit.join_inFlight]
    refine (harmed.serves.of_map_eq ?_ ?_).congr ?_ ?_ ?_
    all_goals simp [hsplit.eq, Engine.join, InFlight.exchange]
  · simp [Engine.join, hstarted]

theorem openEntry (harmed : engine.Armed) (hstarted : engine.started = true)
    {question : Question} (hentry : engine.entry? question = none) (now : Nat)
    (query : Octets) (waiter : Waiter κ γ) :
    (engine.openEntry now question query waiter).Armed := by
  have hserves : engine.turned.Serves engine.inFlight :=
    harmed.serves.congr rfl rfl rfl
  have hfresh :
      engine.turned.entry? (engine.newEntry question query waiter).question =
      none :=
    hentry
  rw [openEntry_eq]
  constructor
  · rw [launch_inFlight_of_none hfresh]
    refine (hserves.launch (entry?_eq_none_iff.mp hfresh) ?_ now).perm
      (List.perm_append_singleton _ _).symm
    intro other hother
    exact Nat.ne_of_gt (hserves.positive other hother)
  · simp [turned, hstarted]

theorem cancel [DecidableEq κ] (harmed : engine.Armed) (caller : κ) :
    (engine.cancel caller).1.Armed := by
  constructor
  · refine (harmed.serves.of_map_eq ?_ ?_).congr ?_ ?_ ?_
    all_goals simp [Engine.cancel, Function.comp_def, InFlight.exchange]
  · intro hstopped
    simp [Engine.cancel, harmed.idle hstopped]

theorem proceed (harmed : engine.Armed) {question : Question}
    (hentry : engine.entry? question = some entry) (ending : AttemptEnd)
    (now : Nat) (sequel : Sequel) :
    ((engine.afterEnd entry.generation ending).proceed now entry
      sequel).1.Armed := by
  obtain ⟨front, back, hsplit⟩ := harmed.keyed.split hentry
  have hserves := harmed.serves.perm hsplit.perm
  have hothers :
      (engine.afterEnd entry.generation ending).Serves (front ++ back) :=
    hserves.retire.congr rfl rfl rfl
  have hsplit' :
      Split (engine.afterEnd entry.generation ending).inFlight entry
      front back :=
    hsplit
  have hstarted : engine.started = true := by
    by_contra hstopped
    have hempty := harmed.idle (by simpa using hstopped)
    simpa [hempty] using entry?_mem hentry
  cases sequel with
  | again server protocol retriesDone =>
      constructor
      · rw [Engine.proceed, hsplit'.launch_inFlight now (by rfl)]
        refine Serves.perm (hothers.launch ?_ ?_ now) List.perm_middle.symm
        · exact hsplit.ne_of_mem
        · exact hserves.generation_ne
      · simp [Engine.proceed, hstarted]
  | answered answer =>
      constructor
      · rw [Engine.proceed, hsplit'.settle_inFlight]
        simp only [Engine.settle, hothers.retire_eq hserves.generation_ne]
        exact hothers.congr rfl rfl rfl
      · simp [Engine.proceed, Engine.settle, dropEntry, Engine.retire, hstarted]

theorem stop (engine : Engine κ γ) : engine.stop.1.Armed := by
  refine ⟨?_, fun _ => rfl⟩
  constructor <;> simp [Engine.stop]

theorem aside (harmed : engine.Armed) {started : Bool} (cache : AnswerCache)
    (counters : Counters) (hstarted : engine.started = true → started = true) :
    { engine with started, cache, counters }.Armed := by
  refine ⟨harmed.serves.congr rfl rfl rfl, ?_⟩
  intro hstopped
  apply harmed.idle
  by_contra hrunning
  simp_all

theorem move [DecidableEq κ] {now : Nat} {event : Event κ γ}
    {effect : Effect κ γ} (harmed : engine.Armed)
    (hmove : engine.Move now event effect) : effect.engine.Armed := by
  cases hmove with
  | aside event started cache counters resolution? found? hstarted
    hresolution hspares =>
      apply harmed.aside
      rcases hstarted with rfl | ⟨rfl, -⟩ <;> simp
  | joined question caller context flags cache entry hstarted hentry =>
      exact join (harmed.aside cache engine.counters id) hstarted hentry _
  | opened question caller context flags cache query hstarted hentry hquery =>
      exact openEntry (harmed.aside cache engine.counters id) hstarted
        hentry now query _
  | cancelled caller => exact harmed.cancel caller
  | proceeded question generation ending entry hcurrent =>
      obtain ⟨hentry, rfl⟩ := entry?_of_current? hcurrent
      exact harmed.proceed hentry ending now _
  | stopped => exact stop engine

theorem generation_le (harmed : engine.Armed) {exchange : Exchange}
    (hexchange : exchange ∈ engine.exchanges) :
    exchange.generation ≤ engine.generations := by
  obtain ⟨entry, hentry, rfl⟩ :=
    List.mem_map.mp (harmed.serves.exchanges.mem_iff.mp hexchange)
  exact harmed.serves.bounded entry hentry

end Armed

theorem launchedSince_of_subset {after : Engine κ γ} (harmed : engine.Armed)
    (hsubset : after.exchanges ⊆ engine.exchanges) :
    engine.launchedSince after = [] := by
  rw [launchedSince, List.filter_eq_nil_iff]
  intro exchange hexchange
  simpa using harmed.generation_le (hsubset hexchange)

theorem launchedSince_launch {before : Engine κ γ} (harmed : before.Armed)
    (hsubset : engine.exchanges ⊆ before.exchanges)
    (hgenerations : engine.generations = before.generations) (now : Nat) :
    before.launchedSince (engine.launch now entry) =
      [{ entry with generation := before.generations + 1 }.exchange] := by
  have hold : (engine.retire entry.generation).exchanges.filter
      (fun exchange => before.generations < exchange.generation) = [] := by
    rw [List.filter_eq_nil_iff]
    intro exchange hexchange
    have hbefore :=
      harmed.generation_le (hsubset (List.mem_of_mem_filter hexchange))
    simpa using hbefore
  simp [launchedSince, launch, hold, hgenerations, InFlight.exchange]

theorem retire_exchanges_subset (engine : Engine κ γ) (generation : Nat) :
    (engine.retire generation).exchanges ⊆ engine.exchanges := by
  simp [retire]

/-- An event makes no attempt, or one, which has the next number. -/
theorem Move.launched [DecidableEq κ] {now : Nat} {event : Event κ γ}
    {effect : Effect κ γ} (harmed : engine.Armed)
    (hmove : engine.Move now event effect) :
    (engine.launchedSince effect.engine = [] ∧
      effect.engine.generations = engine.generations) ∨
    ∃ exchange, engine.launchedSince effect.engine = [exchange] ∧
      exchange.generation = engine.generations + 1 ∧
      effect.engine.generations = engine.generations + 1 := by
  cases hmove with
  | aside event started cache counters resolution? found? hstarted
    hresolution hspares =>
      exact .inl ⟨launchedSince_of_subset harmed (List.Subset.refl _), rfl⟩
  | joined question caller context flags cache entry hstarted hentry =>
      refine .inl ⟨launchedSince_of_subset harmed ?_, ?_⟩ <;> simp [join]
  | opened question caller context flags cache query hstarted hentry hquery =>
      rw [openEntry_eq]
      refine .inr ⟨_, launchedSince_launch harmed ?_ ?_ now, ?_, ?_⟩
      · exact List.Subset.refl _
      all_goals rfl
  | cancelled caller =>
      exact .inl ⟨launchedSince_of_subset harmed (List.Subset.refl _), rfl⟩
  | proceeded question generation ending entry hcurrent =>
      have hsubset := retire_exchanges_subset engine generation
      cases entry.sequel engine.settings ending with
      | again server protocol retriesDone =>
          refine .inr ⟨_, launchedSince_launch harmed ?_ ?_ now, ?_, ?_⟩
          · exact hsubset
          all_goals rfl
      | answered answer =>
          refine .inl ⟨launchedSince_of_subset harmed ?_, rfl⟩
          exact List.Subset.trans
            (retire_exchanges_subset _ entry.generation) hsubset
  | stopped =>
      exact .inl ⟨launchedSince_of_subset harmed (List.nil_subset _), rfl⟩

def noteExchanges (exchanges : List Exchange) (step : Step κ γ) :
    List Exchange :=
  exchanges ++ step.launched

theorem noteExchanges_generations [DecidableEq κ] {now : Nat}
    {event : Event κ γ} {effect : Effect κ γ} (harmed : engine.Armed)
    (hmove : engine.Move now event effect) {exchanges : List Exchange}
    (hnotes : exchanges.map Exchange.generation =
      List.range' 1 engine.generations) :
    (noteExchanges exchanges ⟨engine, now, event, effect⟩).map
      Exchange.generation =
      List.range' 1 effect.engine.generations := by
  simp only [noteExchanges, Step.launched, Step.after, List.map_append, hnotes]
  rcases hmove.launched harmed with
    ⟨hlaunched, hgenerations⟩ | ⟨exchange, hlaunched, hnumber, hgenerations⟩
  · simp [hlaunched, hgenerations]
  · simp [hlaunched, hgenerations, hnumber, List.range'_concat, Nat.add_comm]

/-- In every run, what is outstanding between two events is one exchange and one
alarm for each entry, of its current attempt; the exchanges that ever began have
the numbers from one on; a result or an alarm of another attempt than the
current one of an entry changes nothing; and a stopped engine has nothing
outstanding. -/
theorem one_live_attempt_for_each_entry [DecidableEq κ] (settings : Settings)
    (ids : Nat → UInt16) (events : List (Event κ γ)) :
    let watched := Watched.run noteExchanges [] settings ids events
    let engine := watched.engine
    (engine.Keyed ∧
      engine.exchanges.Perm (engine.inFlight.map InFlight.exchange) ∧
      (engine.alarms.map Alarm.attempt).Perm
      (engine.inFlight.map InFlight.attempt)) ∧
    ((watched.notes.map Exchange.generation).Nodup ∧
      watched.notes.map Exchange.generation =
      List.range' 1 engine.generations) ∧
    (∀ now question generation ending,
      (¬∃ entry ∈ engine.inFlight, entry.attempt = (generation, question)) →
        engine.perform now (.ended question generation ending) = { engine }) ∧
    (∀ now, let stopped := (engine.perform now .stop).engine
      stopped.inFlight = [] ∧ stopped.exchanges = [] ∧
      stopped.alarms = []) := by
  intro watched engine
  obtain ⟨harmed, hnotes⟩ : engine.Armed ∧
      watched.notes.map Exchange.generation =
      List.range' 1 engine.generations := by
    refine Watched.run_induction (fun engine (notes : List Exchange) =>
      engine.Armed ∧ notes.map Exchange.generation =
        List.range' 1 engine.generations) ?_ ?_ events
    · exact ⟨create_armed settings ids, rfl⟩
    · rintro watched event ⟨harmed, hnotes⟩ hmove
      exact ⟨harmed.move hmove, noteExchanges_generations harmed hmove hnotes⟩
  refine ⟨⟨harmed.keyed, harmed.serves.exchanges, harmed.serves.alarms⟩,
    ⟨?_, hnotes⟩, ?_, ?_⟩
  · rw [hnotes]
    exact List.nodup_range'
  · intro now question generation ending hstale
    have hcurrent : engine.current? question generation = none := by
      rw [Option.eq_none_iff_forall_ne_some]
      intro entry hentry
      obtain ⟨hfound, hgeneration⟩ := entry?_of_current? hentry
      apply hstale
      refine ⟨entry, entry?_mem hfound, ?_⟩
      simp [InFlight.attempt, hgeneration, entry?_question hfound]
    simp [perform, onEnd_of_stale hcurrent]
  · intro now
    exact ⟨rfl, rfl, rfl⟩

end Engine

end DnsForwarder
