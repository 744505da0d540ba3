import DnsForwarder.Proofs.Simulation.Showing

/-! Questions do not interfere: what callers see of a question is what they see
when no other question is asked, as long as the cache has room for all answers
and the servers answer each question by itself. -/

namespace DnsForwarder

variable {κ γ : Type}

theorem Engine.stop_deliveries_filter {engine : Engine κ γ}
    (hkeyed : engine.Keyed) (question : Question) :
    engine.stop.2.filter (fun delivery =>
      delivery.answer.question == question) =
      deliveries (((engine.entry? question).map InFlight.waiters).getD [])
        (.failure .error 0 question) := by
  let given (entries : List (InFlight κ γ)) : List (Delivery κ γ) :=
    (entries.flatMap fun entry =>
      deliveries entry.waiters (.failure .error 0 entry.question)).filter
      fun delivery => delivery.answer.question == question
  have hothers (entries : List (InFlight κ γ))
      (hentries : ∀ entry ∈ entries, entry.question ≠ question) :
      given entries = [] := by
    rw [List.filter_eq_nil_iff]
    intro delivery hdelivery
    obtain ⟨entry, hentry, hmem⟩ := List.mem_flatMap.mp hdelivery
    obtain ⟨waiter, -, rfl⟩ := List.mem_map.mp hmem
    simpa [Answer.failure] using hentries entry hentry
  change given engine.inFlight = _
  cases hentry : engine.entry? question with
  | none => exact hothers engine.inFlight (entry?_eq_none_iff.mp hentry)
  | some entry =>
      obtain ⟨front, back, hsplit⟩ := hkeyed.split hentry
      obtain rfl := entry?_question hentry
      have hfront := hothers front fun other hother =>
        hsplit.ne_of_mem other (List.mem_append_left _ hother)
      have hback := hothers back fun other hother =>
        hsplit.ne_of_mem other (List.mem_append_right _ hother)
      have hown : given [entry] =
          deliveries entry.waiters (.failure .error 0 entry.question) := by
        simp [given, deliveries, Answer.failure]
      have hsum :
          given (front ++ [entry] ++ back) =
            given front ++ given [entry] ++ given back := by
        simp only [given, List.flatMap_append, List.filter_append]
      rw [hsplit.eq, ← List.singleton_append, ← List.append_assoc, hsum, hfront,
        hown, hback]
      simp

namespace Simulation

variable {scene : Scene} {world : World κ γ (Log κ γ)} {share : Share κ γ}
  {questions : List Question}

theorem Shows.note (hshows : Shows scene world share) {sight : Sight κ γ}
    (hown : sight.question = scene.question) :
    Shows scene (world.note sight) (share.note world.now sight) := by
  refine hshows.change { hshows.toHolds with log := ?_ } Option.map_id'.symm
    Option.map_id'.symm
    fun _ _ _ htraces => { htraces with }
  rw [World.note, Log.about_append, hshows.log, Share.note]
  simp [Log.about, hown]

theorem Shows.call_others (hshows : Shows scene world share)
    (hsound : world.Sound scene.settings questions) {engine : Engine κ γ}
    (hspares : Engine.Spares scene.question world.engine engine)
    {sight : Sight κ γ} (hother : sight.question ≠ scene.question) :
    Shows scene ({ world with engine }.note sight) share := by
  refine hshows.frame hspares rfl rfl ?_ fun entry ask hentry htraces => ?_
  · rw [World.note, Log.about_append]
    simp [Log.about, hother]
  · have hbound :=
      hsound.orderly.armed.serves.bounded entry (Engine.entry?_mem hentry)
    exact htraces.frame hbound hspares (fun _ _ => Iff.rfl) Iff.rfl
      (fun _ => rfl)
      fun fate hfate => (htraces.sent fate hfate).2.1

theorem Shows.lookup (hshows : Shows scene world share) :
    (world.engine.lookup world.now scene.question).2 =
        (share.cache.get world.now scene.question).2 ∧
      Shows scene
        { world with
          engine := (world.engine.lookup world.now scene.question).1 }
        { share with
          cache := (share.cache.get world.now scene.question).1 } := by
  obtain ⟨counters, hlookup, -⟩ :=
    world.engine.lookup_eq world.now scene.question
  rw [hlookup]
  refine ⟨by rw [AnswerCache.get_snd, AnswerCache.get_snd, hshows.found], ?_⟩
  have hholds := hshows.toHolds
  refine hshows.change { hholds with found := ?_, maxTtl := ?_, capacity := ?_ }
    Option.map_id'.symm Option.map_id'.symm fun _ _ _ htraces =>
      { htraces with }
  · exact (AnswerCache.find?_get ..).trans
      ((congrArg (Option.filter _) hholds.found).trans
        (AnswerCache.find?_get ..).symm)
  · exact (AnswerCache.get_maxTtl ..).trans hholds.maxTtl
  · exact Nat.lt_of_lt_of_eq hholds.capacity (AnswerCache.get_capacity ..).symm

theorem Shows.join (hshows : Shows scene world share) {entry : InFlight κ γ}
    (hentry : world.engine.entry? scene.question = some entry)
    (waiter : Waiter κ γ) :
    Shows scene { world with engine := world.engine.join entry waiter }
      { share with
        ask? := share.ask?.map fun ask =>
          { ask with waiters := ask.waiters ++ [waiter] } } := by
  have hquestion := Engine.entry?_question hentry
  have hholds := hshows.toHolds
  have hjoined : Engine.entry? (world.engine.join entry waiter) scene.question =
      (world.engine.entry? scene.question).map fun entry =>
        { entry with waiters := entry.waiters ++ [waiter] } := by
    rw [hentry]
    exact (Engine.entry?_putEntry world.engine _ scene.question).trans
      (if_pos hquestion)
  refine hshows.change { hholds with started := ?_, found := ?_ } hjoined rfl ?_
  · exact (Engine.putEntry_started ..).trans hholds.started
  · exact (congrArg (AnswerCache.find? · scene.question)
      (Engine.putEntry_cache ..)).trans hholds.found
  · intro old ask hold htraces
    rw [htraces.waiters]
    refine htraces.withWaiters ?_ (ask.waiters ++ [waiter])
    intro alarm halarm
    rwa [Engine.join, Engine.putEntry_alarms] at halarm

theorem Shows.openEntry (hshows : Shows scene world share)
    (hsound : world.Sound scene.settings questions) (query : Octets)
    (waiter : Waiter κ γ) :
    Shows scene
      { world with
        engine := world.engine.openEntry world.now scene.question query waiter }
      { share with
        ask? := some
          ⟨Engine.initialProtocol scene.settings, 0, world.now, [waiter],
            none⟩ } := by
  have hholds := hshows.toHolds
  have hsettings := hsound.orderly.settings_eq
  rw [Engine.openEntry_eq]
  refine ⟨{ hholds with started := ?_, found := ?_ }, ?_⟩
  · exact (Engine.launch_started ..).trans hholds.started
  · exact (congrArg (AnswerCache.find? · scene.question)
      (Engine.launch_cache ..)).trans hholds.found
  · simp only [Engine.entry?_launch, Engine.newEntry, if_pos]
    refine .some ⟨⟨?_, rfl, rfl⟩, ?_, fun _ => ⟨?_, rfl⟩, fun _ hfate =>
      by cases hfate⟩
    · exact congrArg Engine.initialProtocol hsettings
    · intro alarm halarm hgeneration
      rw [Engine.launch_alarm_due ?_ halarm hgeneration]
      · exact congrArg (fun settings => world.now + settings.timeout) hsettings
      · exact fun alarm => hsound.orderly.armed.alarm_le
    · exact Nat.lt_succ_of_le hsound.begun_le

theorem Shows.resolveUncached (hshows : Shows scene world share)
    (hsound : world.Sound scene.settings questions) (waiter : Waiter κ γ)
    (flags : Flags) :
    let outcome :=
      world.engine.resolveUncached world.now scene.question waiter flags
    let mine := scene.resolveUncached world.now waiter flags share
    outcome.2 = mine.2 ∧
    Shows scene { world with engine := outcome.1 } mine.1 := by
  intro outcome mine
  simp only [outcome, mine, Engine.resolveUncached, Scene.resolveUncached]
  split
  next => exact ⟨rfl, hshows⟩
  next =>
    cases hentry : world.engine.entry? scene.question with
    | some entry =>
        obtain ⟨ask, hask, -⟩ := hshows.ask_of_entry hentry
        have hjoined := hshows.join hentry waiter
        rw [hask] at hjoined ⊢
        exact ⟨rfl, hjoined⟩
    | none =>
        rw [hshows.ask_of_none hentry]
        obtain ⟨error, herror, hother⟩ | ⟨query, sibling, hquery, hsibling⟩ :=
          Message.buildQuery_congr scene.question
            (world.engine.ids (world.engine.generations + 1)) 0
        · rw [herror, hother]
          exact ⟨rfl, hshows⟩
        · rw [hquery, hsibling]
          exact ⟨rfl, hshows.openEntry hsound query waiter⟩

theorem Shows.resolve [DecidableEq κ] (hshows : Shows scene world share)
    (hsound : world.Sound scene.settings questions) (caller : κ) (context : γ)
    (flags : Flags) :
    let outcome :=
      world.engine.resolve world.now scene.question caller context flags
    let mine := scene.resolve world.now ⟨caller, context⟩ flags share
    outcome.2 = mine.2 ∧
    Shows scene { world with engine := outcome.1 } mine.1 := by
  intro outcome mine
  simp only [outcome, mine, Engine.resolve, Scene.resolve, hshows.started]
  split
  next => exact ⟨rfl, hshows⟩
  next =>
    split
    next => exact hshows.resolveUncached hsound ⟨caller, context⟩ flags
    next =>
      obtain ⟨hfound, hlooked⟩ := hshows.lookup
      have hasks :
          (Engine.Event.lookup scene.question : Engine.Event κ γ).AsksOf
          questions :=
        trivial
      have hsafe : World.Sound scene.settings questions
          { world with
            engine := (world.engine.lookup world.now scene.question).1 } :=
        hsound.perform hasks world.now rfl rfl (List.Subset.refl _)
      rw [← hfound]
      cases hlookup : world.engine.lookup world.now scene.question with
      | mk engine answer? =>
          rw [hlookup] at hlooked hsafe
          cases answer? with
          | some answer => exact ⟨rfl, hlooked⟩
          | none => exact hlooked.resolveUncached hsafe ⟨caller, context⟩ flags

theorem Shows.cancel [DecidableEq κ] (hshows : Shows scene world share)
    (caller : κ) :
    Shows scene { world with engine := (world.engine.cancel caller).1 }
      { share with
        ask? := share.ask?.map fun ask =>
          { ask with
            waiters := ask.waiters.filter fun waiter =>
              waiter.caller ≠ caller } } := by
  refine hshows.change { hshows.toHolds with } (Engine.entry?_cancel ..) rfl ?_
  intro entry ask hentry htraces
  rw [htraces.waiters]
  have halarms : (world.engine.cancel caller).1.alarms ⊆ world.engine.alarms :=
    List.Subset.refl _
  exact htraces.withWaiters halarms _

theorem Shows.withStarted (hshows : Shows scene world share) (started : Bool) :
    Shows scene { world with engine := { world.engine with started } }
      { share with started } :=
  hshows.change { hshows.toHolds with started := rfl } Option.map_id'.symm
    Option.map_id'.symm
    fun _ _ _ htraces => { htraces with }

theorem Shows.stop (hshows : Shows scene world share)
    (hsound : world.Sound scene.settings questions) :
    Shows scene (world.stop recorder) (scene.stop world.now share) := by
  have hwaiters :
      ((world.engine.entry? scene.question).map InFlight.waiters).getD [] =
      (share.ask?.map Ask.waiters).getD [] := by
    cases hentry : world.engine.entry? scene.question with
    | none => rw [hshows.ask_of_none hentry]; rfl
    | some entry =>
        obtain ⟨ask, hask, htraces⟩ := hshows.ask_of_entry hentry
        rw [hask]
        exact htraces.waiters
  rw [World.stop, World.apply_recorder]
  refine ⟨{ hshows.toHolds with started := rfl, found := rfl, log := ?_ },
    .none⟩
  rw [Log.about_append, Log.about_ofDeliveries, hshows.log,
    Engine.stop_deliveries_filter hsound.orderly.armed.keyed, hwaiters]
  rfl

section Commands

variable [DecidableEq κ] {command : Command κ γ}

theorem Shows.start (hshows : Shows scene world share)
    (hsound : world.Sound scene.settings questions) :
    Shows scene (world.obey .start)
      { share with
        started := share.started || scene.settings.servers ≠ [] } := by
  by_cases hservers : world.engine.settings.servers = []
  · have hstart : world.obey .start = world := by
      simp [World.obey, World.start, Engine.start, hservers, Except.map]
    rw [hsound.orderly.settings_eq] at hservers
    simpa [hstart, hservers] using hshows
  · have hstart :
        world.obey .start =
          { world with engine := { world.engine with started := true } } := by
      simp [World.obey, World.start, Engine.start, hservers, Except.map]
    rw [hsound.orderly.settings_eq] at hservers
    simpa [hstart, hservers] using hshows.withStarted true

theorem World.Sound.obey {settings : Settings}
    (hsound : world.Sound settings questions)
    (hasked : ∀ question ∈ command.question?, question ∈ questions) :
    (world.obey command).Sound settings questions := by
  have hperform (event : Engine.Event κ γ) (hasks : event.AsksOf questions)
      {next : World κ γ (Log κ γ)}
      (hengine : next.engine = (world.engine.perform world.now event).engine)
      (hbegun : next.begun = world.begun)
      (harrivals : next.arrivals = world.arrivals) :
      next.Sound settings questions :=
    hsound.perform hasks world.now hengine hbegun
      (harrivals ▸ List.Subset.refl _)
  cases command with
  | advance ms =>
      obtain ⟨-, -, -, -, -, -, hadvanced⟩ :=
        World.advance_invariant (fun _ => True)
        (fun _ _ _ _ _ _ => trivial) hsound trivial
      exact hadvanced
  | start =>
      have hengine : (world.obey .start).engine =
          (world.engine.perform world.now .start).engine := by
        simp only [World.obey, World.start, Engine.perform]
        cases world.engine.start <;> rfl
      refine hperform .start trivial hengine ?_ ?_
      all_goals
        simp only [World.obey, World.start]
        cases world.engine.start <;> rfl
  | stop =>
      rw [World.obey, World.stop, World.apply_recorder]
      exact hperform .stop trivial rfl rfl rfl
  | resolve question caller context flags =>
      exact hperform (.resolve question caller context flags)
        (hasked question rfl) rfl rfl rfl
  | lookup question => exact hperform (.lookup question) trivial rfl rfl rfl
  | cancel caller => exact hperform (.cancel caller) trivial rfl rfl rfl

theorem World.obey_now (world : World κ γ (Log κ γ)) (command : Command κ γ) :
    (world.obey command).now = command.clock world.now := by
  cases command with
  | start =>
      simp only [World.obey, World.start]
      cases world.engine.start <;> rfl
  | stop =>
      rw [World.obey, World.stop, World.apply_recorder]
      rfl
  | _ => rfl

theorem Shows.obey (hshows : Shows scene world share)
    (hsound : world.Sound scene.settings questions)
    (hown : command.sparesOthers scene.question) :
    ∃ later, Share.Obeys scene world.now command share later ∧
      Shows scene (world.obey command) later := by
  cases command with
  | advance ms =>
      obtain ⟨later, hgoes, hrests, hlater⟩ := hshows.advance hsound ms
      exact ⟨later, ⟨hgoes, hrests⟩, hlater⟩
  | start => exact ⟨_, rfl, hshows.start hsound⟩
  | stop => exact ⟨_, rfl, hshows.stop hsound⟩
  | resolve question caller context flags =>
      obtain rfl : question = scene.question := by
        simpa [Command.sparesOthers, Command.question?] using hown
      obtain ⟨hresolution, hresolved⟩ :=
        hshows.resolve hsound caller context flags
      let mine := scene.resolve world.now ⟨caller, context⟩ flags share
      refine ⟨mine.1.note world.now (.resolved scene.question mine.2), rfl, ?_⟩
      rw [← hresolution]
      exact hresolved.note rfl
  | lookup question =>
      obtain rfl : question = scene.question := by
        simpa [Command.sparesOthers, Command.question?] using hown
      obtain ⟨hfound, hlooked⟩ := hshows.lookup
      let read := share.cache.get world.now scene.question
      let later : Share κ γ :=
        Share.note { share with cache := read.1 } world.now
          (.found scene.question read.2)
      refine ⟨later, rfl, ?_⟩
      simp only [later, read, ← hfound]
      exact hlooked.note rfl
  | cancel caller => exact ⟨_, rfl, hshows.cancel caller⟩

theorem Shows.obey_others (hshows : Shows scene world share)
    (hsound : world.Sound scene.settings questions)
    (hother : command.sparesOthers scene.question = false) :
    Shows scene (world.obey command) share := by
  cases command with
  | resolve question caller context flags =>
      have hdifferent : question ≠ scene.question := by
        simpa [Command.sparesOthers, Command.question?] using hother
      exact hshows.call_others hsound
        (Engine.resolve_spares world.engine world.now caller context flags
          hdifferent) hdifferent
  | lookup question =>
      have hdifferent : question ≠ scene.question := by
        simpa [Command.sparesOthers, Command.question?] using hother
      exact hshows.call_others hsound
        (Engine.lookup_spares world.engine world.now hdifferent) hdifferent
  | _ => cases hother

/-- Two worlds that show the same share go on to do so, also if one of them is
spared the calls for other questions. -/
theorem about_foldl_filter (scene : Scene) {other : World κ γ (Log κ γ)}
    {commands : List (Command κ γ)}
    (hasked : ∀ command ∈ commands, ∀ question ∈ command.question?,
      question ∈ questions)
    (hsound : world.Sound scene.settings questions)
    (hother : other.Sound scene.settings questions)
    (hshows : Shows scene world share) (hsame : Shows scene other share)
    (hnow : world.now = other.now) :
    Log.about scene.question (commands.foldl World.obey world).host =
      Log.about scene.question
        ((commands.filter (Command.sparesOthers scene.question)).foldl
          World.obey other).host := by
  induction commands generalizing world other share with
  | nil => exact hshows.log.trans hsame.log.symm
  | cons command commands ih =>
      obtain ⟨hcommand, hcommands⟩ := List.forall_mem_cons.mp hasked
      have hobeyed := hsound.obey hcommand
      cases hown : command.sparesOthers scene.question with
      | true =>
          -- Both worlds take the command, and what it makes of their one share
          -- is unique.
          obtain ⟨later, hobeys, hlater⟩ := hshows.obey hsound hown
          obtain ⟨later', hobeys', hlater'⟩ := hsame.obey hother hown
          obtain rfl := hobeys.unique (hnow ▸ hobeys')
          rw [List.filter_cons_of_pos hown]
          refine ih hcommands hobeyed (hother.obey hcommand) hlater hlater' ?_
          rw [World.obey_now, World.obey_now, hnow]
      | false =>
          -- Only one world takes it. Its share stays as it is, and so does the
          -- time.
          rw [List.filter_cons_of_neg (by simp [hown])]
          refine ih hcommands hobeyed hother
            (hshows.obey_others hsound hown) hsame ?_
          rw [World.obey_now, Command.clock_of_others world.now hown, hnow]

end Commands

theorem create_shows (scene : Scene) (ids : Nat → UInt16)
    {nameServers : NameServers}
    (hreplies : ∀ earlier exchange, exchange.question = scene.question →
      nameServers earlier exchange =
        scene.reply (NameServers.asked scene.question earlier)) :
    Shows scene
      (World.create (.create scene.settings ids) [] nameServers :
        World κ γ (Log κ γ))
      ⟨false, .empty scene.settings.cacheMaxEntries scene.settings.maxTtl, 0,
        none, []⟩ where
  started := rfl
  found := rfl
  maxTtl := rfl
  capacity := Nat.lt_of_lt_of_le Nat.zero_lt_one (Nat.le_max_right _ _)
  replies := hreplies
  asked := rfl
  log := rfl
  ask := .none

/-- What callers see of a question (how their requests and look-ups went, which
answers were handed to whom, with what contexts and when) is what they see when
all requests and look-ups for other questions are left out. The cache has room
for the answers to all questions, and a reply depends on its question and on how
often that was asked before; replies to this question echo the ids of their
queries. The ids themselves may be different. -/
theorem questions_do_not_interfere [DecidableEq κ] (settings : Settings)
    (ids others : Nat → UInt16) (reply : Question → Nat → Reply)
    (commands : List (Command κ γ)) (question : Question)
    (hroom : (commands.filterMap Command.question?).dedup.length ≤
      settings.cacheMaxEntries)
    (hechoes : ∀ count, (reply question count).Echoes question) :
    let nameServers := NameServers.ofQuestions reply
    Log.about question (World.run settings ids nameServers commands).host =
      Log.about question (World.run settings others nameServers
        (commands.filter (Command.sparesOthers question))).host := by
  intro nameServers
  let scene : Scene := ⟨settings, question, reply question, hechoes⟩
  have hreplies : ∀ earlier exchange, exchange.question = question →
      nameServers earlier exchange =
        reply question (NameServers.asked question earlier) := by
    rintro earlier exchange rfl
    rfl
  refine about_foldl_filter scene ?_
    (World.create_sound hroom ids nameServers)
    (World.create_sound hroom others nameServers)
    (create_shows scene ids hreplies) (create_shows scene others hreplies) rfl
  intro command hcommand asked hasked
  exact List.mem_filterMap.mpr ⟨command, hcommand, hasked⟩

def hostQuestion : Question := ⟨.a, .name "a.example"⟩

/-- The same on the wire as `hostQuestion`, though it is another question. -/
def escapedQuestion : Question := ⟨.a, .name "\\a.example"⟩

/-- Servers that leave the first query for a question unanswered and find an
address for the others. -/
def forgetful (_ : Question) : Nat → Reply
  | 0 => ⟨.hang, 0⟩
  | _ =>
      ⟨.message Message.Rcode.noError false
        [⟨"a.example.", 300, .a ⟨192, 0, 2, 1⟩⟩] 0 true none, 30⟩

def impatient : Settings :=
  { Settings.ofServers {} [.v4 ⟨192, 0, 2, 53⟩ 53, .v4 ⟨192, 0, 2, 54⟩ 53] with
    retries := 1
    timeout := 100
    cacheMaxEntries := 2 }

def mixedCommands : List (Command Nat Nat) :=
  [.start, .resolve escapedQuestion 1 10 {}, .resolve hostQuestion 2 20 {},
    .advance 40, .resolve hostQuestion 3 30 {},
    .resolve escapedQuestion 3 40 {}, .cancel 2, .advance 1000,
    .lookup hostQuestion]

theorem forgetful_echoes (count : Nat) :
    (forgetful hostQuestion count).Echoes hostQuestion := by
  cases count with
  | zero => exact echoes_hang _ _
  | succ count => exact echoes_message _ _ _ _ _ _ _ (by simp)

set_option maxRecDepth 10000 in
theorem host_is_found_alone :
    ((mixedCommands.filterMap Command.question?).dedup.length ≤
        impatient.cacheMaxEntries ∧
      ∀ count, (forgetful hostQuestion count).Echoes hostQuestion) ∧
    Message.buildQuery escapedQuestion 0 =
      Message.buildQuery hostQuestion 0 ∧
    (let nameServers := NameServers.ofQuestions forgetful
    Log.about hostQuestion
        (World.run impatient messageIds nameServers mixedCommands).host =
      Log.about hostQuestion (World.run impatient messageIds nameServers
        (mixedCommands.filter (Command.sparesOthers hostQuestion))).host) ∧
    (Log.about hostQuestion (World.run impatient messageIds
      (.ofQuestions forgetful) mixedCommands).host).map Prod.fst =
        [0, 40, 130, 1040] := by
  have hroom : (mixedCommands.filterMap Command.question?).dedup.length ≤
      impatient.cacheMaxEntries := by decide +kernel
  exact ⟨⟨hroom, forgetful_echoes⟩, by decide +kernel,
    questions_do_not_interfere impatient messageIds messageIds forgetful
      mixedCommands hostQuestion hroom forgetful_echoes,
    by decide +kernel⟩

end Simulation

end DnsForwarder
