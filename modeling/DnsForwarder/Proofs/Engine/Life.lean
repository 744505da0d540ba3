import DnsForwarder.Proofs.Engine.Course

/-! The entries of one question as an observer sees them: the exchanges that
begin for it, how they end, and the step with which an entry is gone. Each of
them goes the way of the recursion. -/

namespace DnsForwarder

structure Life where
  first : Exchange
  later : List Exchange := []
  endings : List AttemptEnd := []

namespace Life

def attempts (life : Life) : List Exchange :=
  life.first :: life.later

def latest (life : Life) : Exchange :=
  life.later.getLastD life.first

def sent (life : Life) : List (Nat × Protocol) :=
  life.attempts.map fun exchange => (exchange.server, exchange.protocol)

def outcomes (life : Life) (ids : Nat → UInt16) : List Outcome :=
  life.endings.map (.ofEnd life.first.question (ids life.first.generation))

def course (life : Life) (settings : Settings) (ids : Nat → UInt16)
    (more : List Outcome := []) :
    Course :=
  DnsForwarder.course settings life.first.question life.first.server
    (if settings.alwaysTcp then .tcp else .udp) 0 (life.outcomes ids ++ more)

/-- Only the end of the latest attempt counts as its outcome. -/
def withEnd (life : Life) {κ γ : Type} : Engine.Event κ γ → Life
  | .ended question generation ending =>
      if question = life.first.question ∧
        generation = life.latest.generation then
        { life with endings := life.endings ++ [ending] }
      else life
  | _ => life

def withAttempts (life : Life) (exchanges : List Exchange) : Life :=
  { life with later := life.later ++ exchanges }

end Life

namespace Engine

variable {κ γ : Type}

def Step.launchedFor (step : Step κ γ) (question : Question) : List Exchange :=
  step.launched.filter fun exchange => exchange.question == question

def Step.Valid [DecidableEq κ] (step : Step κ γ) : Prop :=
  step.before.Move step.now step.event step.effect

/-- A step keeps an answer and hands it to all who wait for a question. -/
def Step.Gives (step : Step κ γ) (question : Question) (answer : Answer) :
    Prop :=
  ∃ entry, step.before.entry? question = some entry ∧
    step.effect.deliveries = deliveries entry.waiters answer ∧
    step.after.cache = (step.before.cache.insert step.now answer).1

/-- What was seen of a question: entries that are gone, each with its last step,
and one that is not. -/
structure Sightings (κ γ : Type) where
  past : List (Life × Step κ γ) := []
  current? : Option Life := none

def noteLife (question : Question) (sightings : Sightings κ γ)
    (step : Step κ γ) :
    Sightings κ γ :=
  match sightings.current? with
  | none =>
      match step.launchedFor question with
      | [] => sightings
      | first :: later => { sightings with current? := some { first, later } }
  | some life =>
      let life :=
        (life.withEnd step.event).withAttempts (step.launchedFor question)
      if (step.after.entry? question).isSome then
        { sightings with current? := some life }
      else { past := sightings.past ++ [(life, step)] }

/-- A life is that of an entry: its latest attempt is the current one, and the
recursion goes on from there. -/
structure Tracks (settings : Settings) (ids : Nat → UInt16) (life : Life)
    (entry : InFlight κ γ) :
    Prop where
  question : life.first.question = entry.question
  messageId : ids life.first.generation = entry.messageId
  latest : life.latest = entry.exchange
  built : Message.buildQuery entry.question entry.messageId = .ok entry.query
  queries : ∀ exchange ∈ life.attempts, exchange.query = entry.query
  course : ∃ earlier, life.sent = earlier ++ [(entry.server, entry.protocol)] ∧
    ∀ more, life.course settings ids more =
    (entry.course settings more).after earlier

namespace Tracks

variable {settings : Settings} {ids : Nat → UInt16} {life : Life}
  {entry : InFlight κ γ}

theorem course_eq (htracks : Tracks settings ids life entry) :
    life.course settings ids = ⟨life.sent, none⟩ := by
  obtain ⟨earlier, hsent, hcourse⟩ := htracks.course
  rw [hcourse [], hsent]
  rfl

theorem withWaiters (htracks : Tracks settings ids life entry)
    (waiters : List (Waiter κ γ)) :
    Tracks settings ids life { entry with waiters } :=
  ⟨htracks.question, htracks.messageId, htracks.latest, htracks.built,
    htracks.queries, htracks.course⟩

theorem withEnd_eq (htracks : Tracks settings ids life entry)
    (ending : AttemptEnd) :
    life.withEnd (.ended entry.question entry.generation ending : Event κ γ) =
      { life with endings := life.endings ++ [ending] } := by
  have hgeneration : life.latest.generation = entry.generation := by
    rw [htracks.latest]
    rfl
  simp [Life.withEnd, htracks.question, hgeneration]

/-- One more outcome takes the recursion one step on. -/
theorem course_withEnd (htracks : Tracks settings ids life entry)
    (ending : AttemptEnd) :
    ∃ earlier, life.sent = earlier ++ [(entry.server, entry.protocol)] ∧
      ∀ more, { life with endings := life.endings ++ [ending] }.course
        settings ids more =
        (entry.courseAfter settings more (entry.sequel settings ending)).after
          earlier := by
  obtain ⟨earlier, hsent, hcourse⟩ := htracks.course
  refine ⟨earlier, hsent, ?_⟩
  intro more
  have hstep := hcourse (.ofEnd entry.question entry.messageId ending :: more)
  rw [InFlight.course_cons] at hstep
  rw [← hstep]
  simp [Life.course, Life.outcomes, htracks.question, htracks.messageId]

theorem again (htracks : Tracks settings ids life entry) {ending : AttemptEnd}
    {server : Nat} {protocol : Protocol} {retriesDone : Nat}
    (generation : Nat)
    (hsequel : entry.sequel settings ending =
      .again server protocol retriesDone) :
    let changed := { entry with server, protocol, retriesDone, generation }
    Tracks settings ids
      ((life.withEnd
        (.ended entry.question entry.generation ending :
          Event κ γ)).withAttempts [changed.exchange])
      changed := by
  intro changed
  rw [htracks.withEnd_eq]
  obtain ⟨earlier, hsent, hcourse⟩ := htracks.course_withEnd ending
  exact {
    question := htracks.question
    messageId := htracks.messageId
    latest := by simp [Life.latest, Life.withAttempts]
    built := htracks.built
    queries := by
      intro exchange hexchange
      have hsplit : exchange ∈ life.attempts ∨ exchange = changed.exchange := by
        simpa [Life.attempts, Life.withAttempts, or_assoc] using hexchange
      rcases hsplit with hold | rfl
      · exact htracks.queries exchange hold
      · rfl
    course := by
      refine ⟨life.sent, ?_, ?_⟩
      · simp [Life.sent, Life.attempts, Life.withAttempts,
          InFlight.exchange, changed]
      · intro more
        rw [hsent, ← Course.after_after]
        have hnext := hcourse more
        rw [hsequel] at hnext
        exact hnext }

theorem answered (htracks : Tracks settings ids life entry)
    {ending : AttemptEnd} {answer : Answer}
    (hsequel : entry.sequel settings ending = .answered answer) :
    { life with endings := life.endings ++ [ending] }.course settings ids =
      ⟨life.sent, some answer⟩ := by
  obtain ⟨earlier, hsent, hcourse⟩ := htracks.course_withEnd ending
  rw [hcourse [], hsequel, hsent]
  rfl

end Tracks

/-- The last step of an entry gives the answer of the recursion, or it stops the
engine before there is one. -/
def Closes (settings : Settings) (ids : Nat → UInt16) (question : Question)
    (life : Life) (step : Step κ γ) : Prop :=
  step.event = .stop ∧ life.course settings ids = ⟨life.sent, none⟩ ∨
    ∃ answer, step.Gives question answer ∧ life.course settings ids =
    ⟨life.sent, some answer⟩

structure Seen (settings : Settings) (ids : Nat → UInt16) (question : Question)
    (engine : Engine κ γ) (sightings : Sightings κ γ) : Prop where
  armed : engine.Armed
  settings_eq : engine.settings = settings
  ids_eq : engine.ids = ids
  current :
    Option.Rel (Tracks settings ids) sightings.current? (engine.entry? question)
  past : ∀ life step, (life, step) ∈ sightings.past →
    Closes settings ids question life step

theorem current?_generation {engine : Engine κ γ} {question : Question}
    {entry : InFlight κ γ} (hentry : engine.entry? question = some entry) :
    engine.current? question entry.generation = some entry := by
  simp [current?, hentry]

theorem entry?_proceed_of_ne {engine : Engine κ γ} {entry : InFlight κ γ}
    {question : Question} (hother : entry.question ≠ question) (now : Nat)
    (sequel : Sequel) :
    Engine.entry? (engine.proceed now entry sequel).1 question =
      engine.entry? question := by
  cases sequel with
  | again server protocol retriesDone => simp [proceed, entry?_launch, hother]
  | answered answer => simp [proceed, entry?_settle, hother]

section Steps

variable {settings : Settings} {ids : Nat → UInt16} {question : Question}
  {step : Step κ γ} {sightings : Sightings κ γ} {entry : InFlight κ γ}
  {life : Life}

theorem noteLife_of_none (hcurrent : sightings.current? = none)
    (hlaunched : step.launchedFor question = []) :
    noteLife question sightings step = sightings := by
  simp [noteLife, hcurrent, hlaunched]

theorem noteLife_of_some (hcurrent : sightings.current? = some life)
    (hentry : Engine.entry? step.after question = some entry) :
    noteLife question sightings step =
      { sightings with
        current? :=
          some ((life.withEnd step.event).withAttempts
            (step.launchedFor question)) } := by
  simp [noteLife, hcurrent, hentry]

theorem noteLife_of_gone (hcurrent : sightings.current? = some life)
    (hentry : Engine.entry? step.after question = none)
    (hlaunched : step.launchedFor question = []) :
    noteLife question sightings step =
      { past := sightings.past ++ [(life.withEnd step.event, step)] } := by
  simp [noteLife, hcurrent, hentry, hlaunched, Life.withAttempts]

theorem noteLife_aside
    (hcurrent : Option.Rel (Tracks settings ids) sightings.current?
      (step.before.entry? question))
    (hlaunched : step.launchedFor question = [])
    (hend : ∀ generation ending, step.event =
      .ended question generation ending →
      step.before.current? question generation = none)
    (waiters : InFlight κ γ → List (Waiter κ γ))
    (hentry : Engine.entry? step.after question =
      (step.before.entry? question).map fun entry =>
        { entry with waiters := waiters entry }) :
    noteLife question sightings step = sightings ∧
      Option.Rel (Tracks settings ids) sightings.current?
        (Engine.entry? step.after question) := by
  rw [hentry]
  cases hlife : sightings.current? with
  | none =>
      rw [hlife] at hcurrent
      cases hbefore : step.before.entry? question with
      | none => exact ⟨noteLife_of_none hlife hlaunched, .none⟩
      | some entry => rw [hbefore] at hcurrent; cases hcurrent
  | some life =>
      rw [hlife] at hcurrent
      cases hbefore : step.before.entry? question with
      | none => rw [hbefore] at hcurrent; cases hcurrent
      | some entry =>
          rw [hbefore] at hcurrent hentry
          cases hcurrent with
          | some htracks =>
              refine ⟨?_, .some (htracks.withWaiters _)⟩
              have hsame : life.withEnd step.event = life := by
                cases hevent : step.event with
                | ended asked generation ending =>
                    rw [Life.withEnd, if_neg]
                    rintro ⟨rfl, rfl⟩
                    have hquestion :=
                      htracks.question.trans (entry?_question hbefore)
                    have hnone :=
                      hend life.latest.generation ending
                        (by rw [hevent, hquestion])
                    rw [htracks.latest] at hnone
                    exact Option.some_ne_none _
                      ((current?_generation hbefore).symm.trans hnone)
                | _ => rfl
              rw [noteLife_of_some hlife hentry, hsame, hlaunched]
              simp [Life.withAttempts, ← hlife]

theorem launchedFor_of_subset (harmed : step.before.Armed)
    (hsubset : step.after.exchanges ⊆ step.before.exchanges) :
    step.launchedFor question = [] := by
  rw [Step.launchedFor, Step.launched, launchedSince_of_subset harmed hsubset]
  rfl

theorem launchedFor_launch {prepared : Engine κ γ} {now : Nat}
    (harmed : step.before.Armed)
    (hafter : step.after = prepared.launch now entry)
    (hsubset : prepared.exchanges ⊆ step.before.exchanges)
    (hgenerations : prepared.generations = step.before.generations) :
    step.launchedFor question =
      if entry.question = question then
        [{ entry with generation := step.before.generations + 1 }.exchange]
      else [] := by
  rw [Step.launchedFor, Step.launched, hafter,
    launchedSince_launch harmed hsubset hgenerations now]
  by_cases hsame : entry.question = question <;> simp [InFlight.exchange, hsame]

theorem create_seen :
    Seen settings ids question (.create settings ids : Engine κ γ) {} where
  armed := create_armed settings ids
  settings_eq := rfl
  ids_eq := rfl
  current := .none
  past := by simp

theorem Seen.exists_life {engine : Engine κ γ}
    (hseen : Seen settings ids question engine sightings)
    (hentry : engine.entry? question = some entry) :
    ∃ life, sightings.current? = some life ∧
      Tracks settings ids life entry := by
  have hcurrent := hseen.current
  rw [hentry] at hcurrent
  cases hlife : sightings.current? with
  | none => rw [hlife] at hcurrent; cases hcurrent
  | some life =>
      rw [hlife] at hcurrent
      cases hcurrent with
      | some htracks => exact ⟨life, rfl, htracks⟩

theorem Seen.no_life {engine : Engine κ γ}
    (hseen : Seen settings ids question engine sightings)
    (hentry : engine.entry? question = none) : sightings.current? = none := by
  have hcurrent := hseen.current
  rw [hentry] at hcurrent
  cases hlife : sightings.current? with
  | none => rfl
  | some life => rw [hlife] at hcurrent; cases hcurrent

end Steps

namespace Seen

variable [DecidableEq κ] {settings : Settings} {ids : Nat → UInt16}
  {question : Question} {sightings : Sightings κ γ} {step : Step κ γ}
  {entry : InFlight κ γ}

theorem aside (hseen : Seen settings ids question step.before sightings)
    (hvalid : step.Valid) (hlaunched : step.launchedFor question = [])
    (hend : ∀ generation ending, step.event =
      .ended question generation ending →
      step.before.current? question generation = none)
    (waiters : InFlight κ γ → List (Waiter κ γ))
    (hentry : Engine.entry? step.after question =
      (step.before.entry? question).map fun entry =>
        { entry with waiters := waiters entry }) :
    Seen settings ids question step.after
      (noteLife question sightings step) := by
  obtain ⟨hsame, hcurrent⟩ :=
    noteLife_aside hseen.current hlaunched hend waiters hentry
  rw [hsame]
  exact {
    armed := hseen.armed.move hvalid
    settings_eq := hvalid.settings_eq.trans hseen.settings_eq
    ids_eq := hvalid.ids_eq.trans hseen.ids_eq
    current := hcurrent
    past := hseen.past }

theorem elsewhere (hseen : Seen settings ids question step.before sightings)
    (hvalid : step.Valid) (hlaunched : step.launchedFor question = [])
    (hend : ∀ generation ending, step.event =
      .ended question generation ending →
      step.before.current? question generation = none)
    (hentry : Engine.entry? step.after question = step.before.entry? question) :
    Seen settings ids question step.after
      (noteLife question sightings step) := by
  refine hseen.aside hvalid hlaunched hend InFlight.waiters ?_
  simp [hentry]

theorem joined (hseen : Seen settings ids question step.before sightings)
    (hvalid : step.Valid)
    (hend : ∀ generation ending, step.event =
      .ended question generation ending →
      step.before.current? question generation = none)
    {asked : Question} {cache : AnswerCache} {waiter : Waiter κ γ}
    (hentry : step.before.entry? asked = some entry)
    (hafter : step.after = { step.before with cache }.join entry waiter) :
    Seen settings ids question step.after
      (noteLife question sightings step) := by
  have hlaunched : step.launchedFor question = [] := by
    apply launchedFor_of_subset hseen.armed
    simp [hafter, join]
  have hfound : Engine.entry? step.after question =
      if entry.question = question then
        some { entry with waiters := entry.waiters ++ [waiter] }
      else step.before.entry? question := by
    rw [hafter]
    exact entry?_putEntry { step.before with cache } _ question
  by_cases hsame : entry.question = question
  · have hquestion : asked = question :=
      (entry?_question hentry).symm.trans hsame
    refine hseen.aside hvalid hlaunched hend
      (fun _ => entry.waiters ++ [waiter]) ?_
    rw [hfound, if_pos hsame, ← hquestion, hentry]
    rfl
  · refine hseen.elsewhere hvalid hlaunched hend ?_
    rw [hfound, if_neg hsame]

theorem opened (hseen : Seen settings ids question step.before sightings)
    (hvalid : step.Valid)
    (hend : ∀ generation ending, step.event =
      .ended question generation ending →
      step.before.current? question generation = none)
    {now : Nat} {asked : Question} {cache : AnswerCache} {query : Octets}
    {waiter : Waiter κ γ} (hentry : step.before.entry? asked = none)
    (hquery : Message.buildQuery asked
      (step.before.ids (step.before.generations + 1)) = .ok query)
    (hafter : step.after =
      { step.before with cache }.openEntry now asked query waiter) :
    Seen settings ids question step.after
      (noteLife question sightings step) := by
  let opening := Engine.newEntry { step.before with cache } asked query waiter
  let entry : InFlight κ γ :=
    { opening with generation := step.before.generations + 1 }
  rw [openEntry_eq] at hafter
  have hlaunched : step.launchedFor question =
      if asked = question then [entry.exchange] else [] := by
    refine launchedFor_launch hseen.armed hafter ?_ ?_
    · exact List.Subset.refl _
    · rfl
  have hfound : Engine.entry? step.after question =
      if asked = question then some entry else step.before.entry? question := by
    rw [hafter]
    exact entry?_launch (Engine.turned { step.before with cache }) opening
      question now
  by_cases hsame : asked = question
  · subst hsame
    rw [if_pos rfl] at hlaunched hfound
    have hnote : noteLife asked sightings step =
        { sightings with current? := some { first := entry.exchange } } := by
      simp [noteLife, hseen.no_life hentry, hlaunched]
    rw [hnote]
    exact {
      armed := hseen.armed.move hvalid
      settings_eq := hvalid.settings_eq.trans hseen.settings_eq
      ids_eq := hvalid.ids_eq.trans hseen.ids_eq
      current := by
        rw [hfound, ← hseen.settings_eq, ← hseen.ids_eq]
        refine .some ?_
        exact {
          question := rfl
          messageId := rfl
          latest := rfl
          built := hquery
          queries := by simp [Life.attempts, InFlight.exchange]
          course := ⟨[], rfl, fun more => rfl⟩ }
      past := hseen.past }
  · rw [if_neg hsame] at hlaunched hfound
    exact hseen.elsewhere hvalid hlaunched hend hfound

theorem again (hseen : Seen settings ids question step.before sightings)
    (hvalid : step.Valid) {now generation : Nat} {ending : AttemptEnd}
    (hentry : step.before.current? question generation = some entry)
    (hevent : step.event = .ended question generation ending) {server : Nat}
    {protocol : Protocol} {retriesDone : Nat}
    (hsequel : entry.sequel step.before.settings ending =
      .again server protocol retriesDone)
    (hafter : step.after = (step.before.afterEnd generation ending).launch now
      { entry with server, protocol, retriesDone }) :
    Seen settings ids question step.after
      (noteLife question sightings step) := by
  obtain ⟨hfound, rfl⟩ := entry?_of_current? hentry
  have hquestion := entry?_question hfound
  obtain ⟨life, hlife, htracks⟩ := hseen.exists_life hfound
  let changed : InFlight κ γ :=
    { entry with
      server, protocol, retriesDone, generation := step.before.generations + 1 }
  have hlaunched : step.launchedFor question = [changed.exchange] := by
    refine (launchedFor_launch hseen.armed hafter ?_ ?_).trans
      (if_pos hquestion)
    · exact retire_exchanges_subset step.before entry.generation
    · rfl
  have hnext : Engine.entry? step.after question = some changed := by
    rw [hafter, entry?_launch, if_pos hquestion]
    rfl
  rw [noteLife_of_some hlife hnext, hlaunched, hevent]
  exact {
    armed := hseen.armed.move hvalid
    settings_eq := hvalid.settings_eq.trans hseen.settings_eq
    ids_eq := hvalid.ids_eq.trans hseen.ids_eq
    current := by
      rw [hnext, ← hquestion]
      rw [hseen.settings_eq] at hsequel
      exact .some (htracks.again _ hsequel)
    past := hseen.past }

theorem gone (hseen : Seen settings ids question step.before sightings)
    (hvalid : step.Valid) (hentry : step.before.entry? question = some entry)
    (hsubset : step.after.exchanges ⊆ step.before.exchanges)
    (hafter : Engine.entry? step.after question = none)
    (hcloses : ∀ life, Tracks settings ids life entry →
      Closes settings ids question (life.withEnd step.event) step) :
    Seen settings ids question step.after
      (noteLife question sightings step) := by
  obtain ⟨life, hlife, htracks⟩ := hseen.exists_life hentry
  rw [noteLife_of_gone hlife hafter (launchedFor_of_subset hseen.armed hsubset)]
  exact {
    armed := hseen.armed.move hvalid
    settings_eq := hvalid.settings_eq.trans hseen.settings_eq
    ids_eq := hvalid.ids_eq.trans hseen.ids_eq
    current := by
      rw [hafter]
      exact .none
    past := by
      intro other last hmem
      rcases List.mem_append.mp hmem with hold | hnew
      · exact hseen.past other last hold
      · obtain ⟨rfl, rfl⟩ : other = life.withEnd step.event ∧ last = step := by
          simpa using hnew
        exact hcloses life htracks }

theorem settled (hseen : Seen settings ids question step.before sightings)
    (hvalid : step.Valid) {generation : Nat} {ending : AttemptEnd}
    (hentry : step.before.current? question generation = some entry)
    (hevent : step.event = .ended question generation ending)
    {answer : Answer}
    (hsequel : entry.sequel step.before.settings ending = .answered answer)
    (hafter : step.after =
      ((step.before.afterEnd generation ending).settle step.now entry answer).1)
    (hdeliveries : step.effect.deliveries = deliveries entry.waiters answer) :
    Seen settings ids question step.after
      (noteLife question sightings step) := by
  obtain ⟨hfound, rfl⟩ := entry?_of_current? hentry
  have hquestion := entry?_question hfound
  refine hseen.gone hvalid hfound ?_ ?_ ?_
  · rw [hafter]
    exact List.Subset.trans (retire_exchanges_subset _ entry.generation)
      (retire_exchanges_subset step.before entry.generation)
  · rw [hafter, entry?_settle, if_pos hquestion]
  · intro life htracks
    refine .inr ⟨answer, ⟨entry, hfound, hdeliveries, ?_⟩, ?_⟩
    · rw [hafter]
      rfl
    · rw [hseen.settings_eq] at hsequel
      rw [hevent, ← hquestion, htracks.withEnd_eq]
      exact htracks.answered hsequel

theorem proceeded (hseen : Seen settings ids question step.before sightings)
    (hvalid : step.Valid) {asked : Question} {generation : Nat}
    {ending : AttemptEnd}
    (hentry : step.before.current? asked generation = some entry)
    (hevent : step.event = .ended asked generation ending)
    (heffect : (step.after, step.effect.deliveries) =
      (step.before.afterEnd generation ending).proceed step.now entry
      (entry.sequel step.before.settings ending)) :
    Seen settings ids question step.after
      (noteLife question sightings step) := by
  have hquestion := entry?_question (entry?_of_current? hentry).1
  by_cases hsame : asked = question
  · subst hsame
    cases hsequel : entry.sequel step.before.settings ending with
    | again server protocol retriesDone =>
        rw [hsequel] at heffect
        exact hseen.again hvalid hentry hevent hsequel
          (congrArg Prod.fst heffect)
    | answered answer =>
        rw [hsequel] at heffect
        exact hseen.settled hvalid hentry hevent hsequel
          (congrArg Prod.fst heffect) (congrArg Prod.snd heffect)
  · have hother : entry.question ≠ question :=
      fun heq => hsame (hquestion.symm.trans heq)
    have hafter :
        step.after =
        ((step.before.afterEnd generation ending).proceed step.now entry
        (entry.sequel step.before.settings ending)).1 :=
        congrArg Prod.fst heffect
    have hretired := retire_exchanges_subset step.before generation
    refine hseen.elsewhere hvalid ?_ ?_ ?_
    · cases hsequel : entry.sequel step.before.settings ending with
      | again server protocol retriesDone =>
          rw [hsequel] at hafter
          exact (launchedFor_launch hseen.armed hafter hretired (by rfl)).trans
            (if_neg hother)
      | answered answer =>
          apply launchedFor_of_subset hseen.armed
          rw [hafter, hsequel]
          exact List.Subset.trans
            (retire_exchanges_subset _ entry.generation) hretired
    · intro other ended heq
      rw [hevent] at heq
      cases heq
      exact absurd rfl hsame
    · rw [hafter, entry?_proceed_of_ne hother]
      rfl

theorem stopped (hseen : Seen settings ids question step.before sightings)
    (hvalid : step.Valid) (hevent : step.event = .stop)
    (hafter : step.after = step.before.stop.1) :
    Seen settings ids question step.after
      (noteLife question sightings step) := by
  have hgone : Engine.entry? step.after question = none := by
    rw [hafter]
    rfl
  have hsubset : step.after.exchanges ⊆ step.before.exchanges := by
    rw [hafter]
    exact List.nil_subset _
  cases hentry : step.before.entry? question with
  | none =>
      refine hseen.elsewhere hvalid
        (launchedFor_of_subset hseen.armed hsubset) ?_ ?_
      · rw [hevent]
        exact nofun
      · rw [hgone, hentry]
  | some entry =>
      refine hseen.gone hvalid hentry hsubset hgone ?_
      intro life htracks
      rw [hevent]
      exact .inl ⟨hevent, htracks.course_eq⟩

theorem next (hseen : Seen settings ids question step.before sightings)
    (hvalid : step.Valid) :
    Seen settings ids question step.after
      (noteLife question sightings step) := by
  obtain ⟨before, now, event, effect⟩ := step
  have hmove : before.Move now event effect := hvalid
  cases hmove with
  | aside event started cache counters resolution? found? hstarted
    hresolution hspares =>
      refine hseen.elsewhere hvalid ?_ ?_ rfl
      · exact launchedFor_of_subset hseen.armed (List.Subset.refl _)
      · rintro generation ending rfl
        exact hspares
  | joined asked caller context flags cache entry hstarted hentry =>
      exact hseen.joined hvalid nofun hentry rfl
  | opened asked caller context flags cache query hstarted hentry hquery =>
      exact hseen.opened hvalid nofun hentry hquery rfl
  | cancelled caller =>
      refine hseen.aside hvalid ?_ nofun _
        (entry?_cancel before question caller)
      exact launchedFor_of_subset hseen.armed (List.Subset.refl _)
  | proceeded asked generation ending entry hcurrent =>
      exact hseen.proceeded hvalid hcurrent rfl rfl
  | stopped => exact hseen.stopped hvalid rfl rfl

end Seen

/-- In every run and for every question: the attempts for an entry, and the
answer with which the entry is gone, are those of the recursion for what came of
the attempts, from the server of the first one on. An entry is under way as long
as the recursion has no answer and the engine is not stopped, and every attempt
sends the query with the id that its response must have. -/
theorem lives_follow_course [DecidableEq κ] (settings : Settings)
    (ids : Nat → UInt16) (events : List (Event κ γ)) (question : Question) :
    let watched := Watched.run (noteLife question) {} settings ids events
    (∀ life, watched.notes.current? = some life →
      life.course settings ids = ⟨life.sent, none⟩ ∧
      ∃ query, Message.buildQuery question (ids life.first.generation) =
      .ok query ∧ ∀ exchange ∈ life.attempts, exchange.query = query) ∧
    (watched.notes.current?.isSome = (watched.engine.entry? question).isSome) ∧
    ∀ life step, (life, step) ∈ watched.notes.past →
      step.event = .stop ∧ life.course settings ids = ⟨life.sent, none⟩ ∨
      ∃ answer, step.Gives question answer ∧
        life.course settings ids = ⟨life.sent, some answer⟩ := by
  intro watched
  have hseen : Seen settings ids question watched.engine watched.notes := by
    refine Watched.run_induction (Seen settings ids question)
      create_seen ?_ events
    intro watched event hseen hmove
    exact Seen.next hseen hmove
  refine ⟨?_, ?_, hseen.past⟩
  · intro life hlife
    have hcurrent := hseen.current
    rw [hlife] at hcurrent
    cases hentry : watched.engine.entry? question with
    | none => rw [hentry] at hcurrent; cases hcurrent
    | some entry =>
        rw [hentry] at hcurrent
        cases hcurrent with
        | some htracks =>
            refine ⟨htracks.course_eq, entry.query, ?_, htracks.queries⟩
            rw [htracks.messageId, ← entry?_question hentry]
            exact htracks.built
  · cases hentry : watched.engine.entry? question with
    | none => rw [hseen.no_life hentry]; rfl
    | some entry =>
        obtain ⟨life, hlife, -⟩ := hseen.exists_life hentry
        rw [hlife]
        rfl

end Engine

end DnsForwarder
