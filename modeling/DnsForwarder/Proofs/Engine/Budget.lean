import DnsForwarder.Proofs.Engine.Ledger
import DnsForwarder.Proofs.Engine.Life

/-! How long requests wait. The clock stops at every alarm until it has rung;
everything else may happen at any time. -/

namespace DnsForwarder

variable {κ γ : Type}

theorem judge_truncated {question : Question} {messageId : UInt16}
    {protocol : Protocol} {negativeTtl : UInt32}
    {result : Except Error Octets}
    (hjudge : judge question messageId protocol negativeTtl result =
      .truncated) :
    protocol = .udp := by
  unfold judge at hjudge
  split at hjudge
  next => cases hjudge
  next =>
    split at hjudge
    next => cases hjudge
    next =>
      split at hjudge
      next =>
        split at hjudge
        next htruncated => exact htruncated.2
        next =>
          unfold Response.verdict at hjudge
          split at hjudge
          next => cases hjudge
          next =>
            split at hjudge
            next => cases hjudge
            next => split at hjudge <;> cases hjudge
      next => cases hjudge

namespace InFlight

variable {entry : InFlight κ γ} {settings : Settings}

theorem afterFailure_again {failure : AttemptFailure} {server : Nat}
    {protocol : Protocol} {retriesDone : Nat}
    (hagain : entry.afterFailure settings failure =
      .again server protocol retriesDone) :
    entry.retriesDone < settings.retries ∧ retriesDone = entry.retriesDone + 1 ∧
      protocol = Engine.initialProtocol settings := by
  unfold afterFailure at hagain
  split at hagain
  next hretries =>
    cases hagain
    exact ⟨hretries, rfl, rfl⟩
  next => cases hagain

theorem sequel_again {ending : AttemptEnd} {server : Nat}
    {protocol : Protocol} {retriesDone : Nat}
    (hagain : entry.sequel settings ending =
      .again server protocol retriesDone) :
    (entry.retriesDone < settings.retries ∧
      retriesDone = entry.retriesDone + 1 ∧
      protocol = Engine.initialProtocol settings) ∨
    (entry.protocol = .udp ∧ retriesDone = entry.retriesDone ∧
      protocol = .tcp) := by
  cases ending with
  | alarm => exact .inl (afterFailure_again hagain)
  | result result =>
      simp only [sequel] at hagain
      cases hjudge : judge entry.question entry.messageId entry.protocol
        settings.negativeTtl result with
      | settled answer =>
          rw [hjudge] at hagain
          cases hagain
      | truncated =>
          rw [hjudge] at hagain
          cases hagain
          exact .inr ⟨judge_truncated hjudge, rfl, rfl⟩
      | failed failure =>
          rw [hjudge] at hagain
          exact .inl (afterFailure_again hagain)

/-- So many attempts are as many as an entry can have made: one for each retry,
and another one where the answer over UDP was cut. -/
structure Counts (settings : Settings) (entry : InFlight κ γ) (sent : Nat) :
    Prop where
  pos : 1 ≤ sent
  retries : entry.retriesDone ≤ settings.retries
  twice :
    sent ≤ 2 * entry.retriesDone +
    match entry.protocol with | .udp => 1 | .tcp => 2
  once : settings.alwaysTcp = true → entry.protocol = .tcp ∧
    sent ≤ entry.retriesDone + 1

namespace Counts

variable {sent : Nat}

theorem opening (hretries : entry.retriesDone = 0)
    (hprotocol : entry.protocol = Engine.initialProtocol settings) :
    entry.Counts settings 1 := by
  refine ⟨Nat.le_refl 1, hretries ▸ Nat.zero_le _, ?_, ?_⟩
  · split <;> omega
  · intro halways
    refine ⟨?_, Nat.le_add_left _ _⟩
    rw [hprotocol, Engine.initialProtocol, if_pos halways]

theorem again (hcounts : entry.Counts settings sent) {ending : AttemptEnd}
    {server : Nat} {protocol : Protocol} {retriesDone : Nat}
    (hagain : entry.sequel settings ending = .again server protocol retriesDone)
    (generation : Nat) :
    InFlight.Counts settings
      { entry with server, protocol, retriesDone, generation }
      (sent + 1) := by
  obtain ⟨hpos, hretries, htwice, honce⟩ := hcounts
  rcases sequel_again hagain with ⟨hleft, rfl, rfl⟩ | ⟨hudp, rfl, rfl⟩
  · refine ⟨Nat.le_add_left _ _, hleft, ?_, ?_⟩
    · have hmost : sent ≤ 2 * entry.retriesDone + 2 := by
        split at htwice <;> omega
      simp only
      split <;> omega
    · intro halways
      refine ⟨?_, Nat.succ_le_succ (honce halways).2⟩
      rw [Engine.initialProtocol, if_pos halways]
  · refine ⟨Nat.le_add_left _ _, hretries, ?_, ?_⟩
    · rw [hudp] at htwice
      exact Nat.succ_le_succ htwice
    · intro halways
      rw [(honce halways).1] at hudp
      cases hudp

theorem le (hcounts : entry.Counts settings sent) :
    sent ≤ 2 * (settings.retries + 1) := by
  obtain ⟨-, hretries, htwice, -⟩ := hcounts
  split at htwice <;> omega

theorem le_of_alwaysTcp (hcounts : entry.Counts settings sent)
    (halways : settings.alwaysTcp = true) : sent ≤ settings.retries + 1 :=
  Nat.le_trans (hcounts.once halways).2 (Nat.succ_le_succ hcounts.retries)

end Counts

end InFlight

namespace Engine

variable {engine : Engine κ γ} {entry : InFlight κ γ} {settings : Settings}
  {now : Nat}

theorem launch_alarms (engine : Engine κ γ) (now : Nat) (entry : InFlight κ γ) :
    (engine.launch now entry).alarms =
      (engine.retire entry.generation).alarms ++
      [⟨engine.generations + 1, entry.question,
        now + engine.settings.timeout⟩] := by
  simp [launch]

theorem Armed.entry_of_alarm (harmed : engine.Armed) {alarm : Alarm}
    (halarm : alarm ∈ engine.alarms) :
    ∃ entry, engine.entry? alarm.question = some entry ∧
      entry.generation = alarm.generation := by
  obtain ⟨entry, hentry, hattempt⟩ :=
    List.mem_map.mp
      (harmed.serves.alarms.mem_iff.mp (List.mem_map_of_mem halarm))
  have hquestion : entry.question = alarm.question := congrArg Prod.snd hattempt
  exact ⟨entry, hquestion ▸ harmed.keyed.entry?_of_mem hentry,
    congrArg Prod.fst hattempt⟩

theorem Armed.alarm_of_entry (harmed : engine.Armed)
    (hentry : entry ∈ engine.inFlight) :
    ∃ alarm ∈ engine.alarms, alarm.attempt = entry.attempt :=
  List.mem_map.mp
    (harmed.serves.alarms.mem_iff.mpr (List.mem_map_of_mem hentry))

section Clock

/-- As much of a time as passes before the next alarm is due. -/
def spare (engine : Engine κ γ) (now ms : Nat) : Nat :=
  engine.alarms.foldr (fun alarm rest => min (alarm.due - now) rest) ms

/-- An event as it happens on a clock that stops at every alarm until it has
rung. -/
def Event.held {δ : Type} (engine : Engine κ δ) (now : Nat) :
    Event κ γ → Event κ γ
  | .wait ms => .wait (engine.spare now ms)
  | event => event

theorem add_spare_le {alarm : Alarm} (halarm : alarm ∈ engine.alarms)
    (hahead : now ≤ alarm.due) (ms : Nat) :
    now + engine.spare now ms ≤ alarm.due := by
  have hspare : engine.spare now ms ≤ alarm.due - now := by
    unfold spare
    generalize engine.alarms = alarms at halarm
    induction alarms with
    | nil => cases halarm
    | cons first rest ih =>
        rw [List.foldr_cons]
        rcases List.mem_cons.mp halarm with rfl | hrest
        · exact Nat.min_le_left _ _
        · exact Nat.le_trans (Nat.min_le_right _ _) (ih hrest)
  omega

end Clock

/-- When the entry of a question began, and how many attempts it has made. -/
structure Age where
  born : Nat
  sent : Nat

def Age.deadline (age : Age) (timeout : Nat) : Nat :=
  age.born + age.sent * timeout

def noteAges (ages : Question → Age) (step : Step κ γ) (question : Question) :
    Age :=
  let sent := (step.launchedFor question).length
  if (step.before.entry? question).isSome then
    ⟨(ages question).born, (ages question).sent + sent⟩
  else ⟨step.now, sent⟩

/-- An alarm is ahead, by no more than the time an attempt may take, and all
attempts took no more than that each. -/
structure Timely (settings : Settings) (now : Nat) (alarm : Alarm) (age : Age) :
    Prop where
  ahead : now ≤ alarm.due
  soon : alarm.due ≤ now + settings.timeout
  within : alarm.due ≤ age.deadline settings.timeout

structure Paced (settings : Settings) (engine : Engine κ γ) (now : Nat)
    (ages : Question → Age) :
    Prop where
  armed : engine.Armed
  settings_eq : engine.settings = settings
  counts : ∀ question entry, engine.entry? question = some entry →
    entry.Counts settings (ages question).sent
  timely :
    ∀ alarm ∈ engine.alarms, Timely settings now alarm (ages alarm.question)

variable {ages : Question → Age}

theorem create_paced (settings : Settings) (ids : Nat → UInt16)
    (ages : Question → Age) :
    (create settings ids : Engine κ γ).Paced settings 0 ages where
  armed := create_armed settings ids
  settings_eq := rfl
  counts := by simp [create, entry?]
  timely := by simp [create]

theorem Paced.wait (hpaced : engine.Paced settings now ages) (ms : Nat) :
    engine.Paced settings (now + engine.spare now ms) ages where
  armed := hpaced.armed
  settings_eq := hpaced.settings_eq
  counts := hpaced.counts
  timely := by
    intro alarm halarm
    obtain ⟨hahead, hsoon, hwithin⟩ := hpaced.timely alarm halarm
    refine ⟨add_spare_le halarm hahead ms, ?_, hwithin⟩
    omega

section Steps

variable {step : Step κ γ} {question : Question}

theorem noteAges_born (hold : (step.before.entry? question).isSome = true) :
    (noteAges ages step question).born = (ages question).born := by
  rw [noteAges, if_pos hold]

theorem noteAges_of_not_launched
    (hold : (step.before.entry? question).isSome = true)
    (hlaunched : step.launchedFor question = []) :
    noteAges ages step question = ages question := by
  simp [noteAges, hold, hlaunched]

theorem noteAges_born_le (hborn : (ages question).born ≤ step.now) :
    (noteAges ages step question).born ≤ step.now := by
  unfold noteAges
  split
  · exact hborn
  · exact Nat.le_refl _

variable [DecidableEq κ]

theorem Paced.quiet (hpaced : step.before.Paced settings step.now ages)
    (hvalid : step.Valid)
    (hexchanges : step.after.exchanges ⊆ step.before.exchanges)
    (halarms : step.after.alarms ⊆ step.before.alarms)
    (hentries : ∀ question entry, Engine.entry? step.after question =
      some entry → ∃ old, step.before.entry? question = some old ∧
      old.protocol = entry.protocol ∧ old.retriesDone = entry.retriesDone) :
    step.after.Paced settings step.now (noteAges ages step) where
  armed := hpaced.armed.move hvalid
  settings_eq := hvalid.settings_eq.trans hpaced.settings_eq
  counts := by
    intro question entry hentry
    obtain ⟨old, hold, hprotocol, hretries⟩ := hentries question entry hentry
    have hcounts := hpaced.counts question old hold
    rw [noteAges_of_not_launched (by rw [hold]; rfl)
      (launchedFor_of_subset hpaced.armed hexchanges)]
    obtain ⟨hpos, hmost, htwice, honce⟩ := hcounts
    rw [hprotocol] at htwice honce
    rw [hretries] at hmost htwice honce
    exact ⟨hpos, hmost, htwice, honce⟩
  timely := by
    intro alarm halarm
    obtain ⟨entry, hentry, -⟩ := hpaced.armed.entry_of_alarm (halarms halarm)
    rw [noteAges_of_not_launched (by rw [hentry]; rfl)
      (launchedFor_of_subset hpaced.armed hexchanges)]
    exact hpaced.timely alarm (halarms halarm)

theorem Paced.launch (hpaced : step.before.Paced settings step.now ages)
    (hvalid : step.Valid) {prepared : Engine κ γ}
    (hafter : step.after = prepared.launch step.now entry)
    (hexchanges : prepared.exchanges ⊆ step.before.exchanges)
    (hgenerations : prepared.generations = step.before.generations)
    (hentries : ∀ question, prepared.entry? question =
      step.before.entry? question)
    (halarms : ∀ alarm ∈ (prepared.retire entry.generation).alarms,
      alarm ∈ step.before.alarms ∧ alarm.question ≠ entry.question)
    (hcounts : InFlight.Counts settings
      { entry with generation := step.before.generations + 1 }
      (noteAges ages step entry.question).sent)
    (hdeadline : step.now + settings.timeout ≤
      (noteAges ages step entry.question).deadline settings.timeout) :
    step.after.Paced settings step.now (noteAges ages step) := by
  have hsettings : prepared.settings = settings := by
    have hsame : step.after.settings = settings :=
      hvalid.settings_eq.trans hpaced.settings_eq
    rwa [hafter, launch_settings] at hsame
  have helsewhere {question : Question} (hother : question ≠ entry.question)
      (hold : (step.before.entry? question).isSome = true) :
      noteAges ages step question = ages question := by
    apply noteAges_of_not_launched hold
    rw [launchedFor_launch hpaced.armed hafter hexchanges hgenerations,
      if_neg hother.symm]
  refine ⟨hpaced.armed.move hvalid,
    hvalid.settings_eq.trans hpaced.settings_eq, ?_, ?_⟩
  · intro question found hfound
    rw [hafter, entry?_launch, hentries, hgenerations] at hfound
    by_cases hsame : entry.question = question
    · subst hsame
      rw [if_pos rfl] at hfound
      cases hfound
      exact hcounts
    · rw [if_neg hsame] at hfound
      rw [helsewhere (Ne.symm hsame) (by rw [hfound]; rfl)]
      exact hpaced.counts question found hfound
  · intro alarm halarm
    rw [hafter, launch_alarms] at halarm
    rcases List.mem_append.mp halarm with hold | hnew
    · -- An alarm that was set before belongs to another entry, whose age stays.
      obtain ⟨hbefore, hother⟩ := halarms alarm hold
      obtain ⟨owner, howner, -⟩ := hpaced.armed.entry_of_alarm hbefore
      rw [helsewhere hother (by rw [howner]; rfl)]
      exact hpaced.timely alarm hbefore
    · obtain rfl := List.mem_singleton.mp hnew
      rw [hsettings]
      exact ⟨Nat.le_add_right _ _, Nat.le_refl _, hdeadline⟩

omit [DecidableEq κ] in
theorem noteAges_launch (harmed : step.before.Armed) {prepared : Engine κ γ}
    (hafter : step.after = prepared.launch step.now entry)
    (hexchanges : prepared.exchanges ⊆ step.before.exchanges)
    (hgenerations : prepared.generations = step.before.generations) :
    noteAges ages step entry.question =
      if (step.before.entry? entry.question).isSome then
        ⟨(ages entry.question).born, (ages entry.question).sent + 1⟩
      else ⟨step.now, 1⟩ := by
  rw [noteAges, launchedFor_launch harmed hafter hexchanges hgenerations,
    if_pos rfl]
  rfl

theorem Paced.opened (hpaced : step.before.Paced settings step.now ages)
    (hvalid : step.Valid) {cache : AnswerCache} {query : Octets}
    {waiter : Waiter κ γ} (hentry : step.before.entry? question = none)
    (hafter : step.after =
      { step.before with cache }.openEntry step.now question query waiter) :
    step.after.Paced settings step.now (noteAges ages step) := by
  rw [openEntry_eq] at hafter
  have hage : noteAges ages step question = ⟨step.now, 1⟩ := by
    refine (noteAges_launch hpaced.armed hafter (List.Subset.refl _) rfl).trans
      (if_neg ?_)
    show ¬(step.before.entry? question).isSome = true
    rw [hentry]
    exact Bool.false_ne_true
  refine hpaced.launch hvalid hafter (List.Subset.refl _) rfl
    (fun _ => rfl) ?_ ?_ ?_
  · intro alarm halarm
    have hbefore : alarm ∈ step.before.alarms := List.mem_of_mem_filter halarm
    refine ⟨hbefore, ?_⟩
    rintro (hsame : alarm.question = question)
    obtain ⟨owner, howner, -⟩ := hpaced.armed.entry_of_alarm hbefore
    rw [hsame, hentry] at howner
    cases howner
  · have hprotocol := congrArg initialProtocol hpaced.settings_eq
    exact (congrArg Age.sent hage).symm ▸ InFlight.Counts.opening rfl hprotocol
  · have hdeadline : (noteAges ages step question).deadline settings.timeout =
        step.now + settings.timeout := by
      rw [hage, Age.deadline, Nat.one_mul]
    exact Nat.le_of_eq hdeadline.symm

theorem Paced.again (hpaced : step.before.Paced settings step.now ages)
    (hvalid : step.Valid) {generation : Nat}
    (hcurrent : step.before.current? question generation = some entry)
    {ending : AttemptEnd} {server : Nat} {protocol : Protocol}
    {retriesDone : Nat}
    (hsequel : entry.sequel step.before.settings ending =
      .again server protocol retriesDone)
    (hafter : step.after =
      (step.before.afterEnd generation ending).launch step.now
      { entry with server, protocol, retriesDone }) :
    step.after.Paced settings step.now (noteAges ages step) := by
  obtain ⟨hentry, rfl⟩ := entry?_of_current? hcurrent
  rw [← entry?_question hentry] at hentry
  have hretired := retire_exchanges_subset step.before entry.generation
  have hage : noteAges ages step entry.question =
      ⟨(ages entry.question).born, (ages entry.question).sent + 1⟩ := by
    refine (noteAges_launch hpaced.armed hafter hretired rfl).trans (if_pos ?_)
    show (step.before.entry? entry.question).isSome = true
    rw [hentry]
    rfl
  refine hpaced.launch hvalid hafter hretired rfl (fun _ => rfl) ?_ ?_ ?_
  · intro alarm halarm
    -- The attempt is retired twice, at its end and when the next one takes its
    -- place.
    have hkept := List.mem_filter.mp (List.mem_of_mem_filter halarm)
    refine ⟨hkept.1, ?_⟩
    rintro (hsame : alarm.question = entry.question)
    obtain ⟨owner, howner, hgeneration⟩ := hpaced.armed.entry_of_alarm hkept.1
    rw [hsame, hentry] at howner
    cases howner
    simp [hgeneration] at hkept
  · rw [hpaced.settings_eq] at hsequel
    have hcounts := (hpaced.counts entry.question entry hentry).again hsequel
      (step.before.generations + 1)
    exact (congrArg Age.sent hage).symm ▸ hcounts
  · obtain ⟨alarm, halarm, hattempt⟩ :=
      hpaced.armed.alarm_of_entry (entry?_mem hentry)
    obtain ⟨hahead, -, hwithin⟩ := hpaced.timely alarm halarm
    have hsame : alarm.question = entry.question := congrArg Prod.snd hattempt
    have hdeadline :
        (noteAges ages step entry.question).deadline settings.timeout =
        (ages entry.question).deadline settings.timeout + settings.timeout := by
      rw [hage, Age.deadline, Age.deadline, Nat.succ_mul, Nat.add_assoc]
    rw [hsame] at hwithin
    exact hdeadline.symm ▸ Nat.add_le_add_right (Nat.le_trans hahead hwithin) _

theorem Paced.proceeded (hpaced : step.before.Paced settings step.now ages)
    (hvalid : step.Valid) {generation : Nat}
    (hcurrent : step.before.current? question generation = some entry)
    {ending : AttemptEnd}
    (hafter : step.after =
      ((step.before.afterEnd generation ending).proceed step.now entry
        (entry.sequel step.before.settings ending)).1) :
    step.after.Paced settings step.now (noteAges ages step) := by
  cases hsequel : entry.sequel step.before.settings ending with
  | again server protocol retriesDone =>
      rw [hsequel] at hafter
      exact hpaced.again hvalid hcurrent hsequel hafter
  | answered answer =>
      rw [hsequel, proceed] at hafter
      refine hpaced.quiet hvalid ?_ ?_ ?_
      · rw [hafter]
        exact List.Subset.trans (retire_exchanges_subset _ entry.generation)
          (retire_exchanges_subset step.before generation)
      · rw [hafter]
        intro alarm halarm
        exact List.mem_of_mem_filter (List.mem_of_mem_filter halarm)
      · intro question found hfound
        rw [hafter, entry?_settle] at hfound
        split at hfound
        next => cases hfound
        next => exact ⟨found, hfound, rfl, rfl⟩

theorem Paced.next (hpaced : step.before.Paced settings step.now ages)
    (hvalid : step.Valid) :
    step.after.Paced settings step.now (noteAges ages step) := by
  obtain ⟨before, now, event, effect⟩ := step
  have hmove : before.Move now event effect := hvalid
  cases hmove with
  | aside event started cache counters resolution? found? hstarted
    hresolution hspares =>
      refine hpaced.quiet hvalid (List.Subset.refl _) (List.Subset.refl _) ?_
      intro question entry hentry
      exact ⟨entry, hentry, rfl, rfl⟩
  | joined asked caller context flags cache entry hstarted hentry =>
      refine hpaced.quiet hvalid ?_ ?_ ?_
      · simp [Step.after, join]
      · simp [Step.after, join]
      · intro question found hfound
        have hjoined := entry?_putEntry { before with cache }
          { entry with waiters := entry.waiters ++ [⟨caller, context⟩] }
          question
        rw [Step.after, join] at hfound
        have hboth := hjoined.symm.trans hfound
        split at hboth
        next hsame =>
          cases hboth
          refine ⟨entry, ?_, rfl, rfl⟩
          rw [← hsame, entry?_question hentry]
          exact hentry
        next => exact ⟨found, hboth, rfl, rfl⟩
  | opened asked caller context flags cache query hstarted hentry hquery =>
      exact hpaced.opened hvalid hentry rfl
  | cancelled caller =>
      refine hpaced.quiet hvalid (List.Subset.refl _) (List.Subset.refl _) ?_
      intro question found hfound
      rw [Step.after, entry?_cancel] at hfound
      obtain ⟨entry, hentry, rfl⟩ := Option.map_eq_some_iff.mp hfound
      exact ⟨entry, hentry, rfl, rfl⟩
  | proceeded asked generation ending entry hcurrent =>
      exact hpaced.proceeded hvalid hcurrent rfl
  | stopped =>
      refine hpaced.quiet hvalid (List.nil_subset _) (List.nil_subset _) ?_
      intro question found hfound
      simp [Step.after, stop, entry?] at hfound

end Steps

/-- A ledger with a clock that stops at every alarm until it has rung, the ages
of the entries and the times of the calls. -/
structure Diary (κ γ : Type) where
  ledger : Ledger κ γ
  ages : Question → Age := fun _ => ⟨0, 0⟩
  asked : List Nat := []

namespace Diary

variable [DecidableEq κ]

def step (diary : Diary κ γ) (event : Event κ γ) : Step κ (Numbered γ) :=
  let event := diary.ledger.numbered event
  ⟨diary.ledger.engine, diary.ledger.now, event,
    diary.ledger.engine.perform diary.ledger.now event⟩

def perform (diary : Diary κ γ) (event : Event κ γ) : Diary κ γ :=
  let ledger := diary.ledger.act (.perform event)
  { ledger
    ages := noteAges diary.ages (diary.step event)
    asked := diary.asked ++
      (ledger.calls.drop diary.ledger.calls.length).map fun _ =>
        diary.ledger.now }

def act (diary : Diary κ γ) : Act κ γ → Diary κ γ
  | .perform event =>
      diary.perform (event.held diary.ledger.engine diary.ledger.now)
  | .hand => { diary with ledger := diary.ledger.act .hand }

def run (settings : Settings) (ids : Nat → UInt16) (acts : List (Act κ γ)) :
    Diary κ γ :=
  acts.foldl act { ledger := { engine := .create settings ids } }

/-- What waits has not waited longer than its entry. -/
structure Kept (settings : Settings) (diary : Diary κ γ) : Prop where
  accounted : diary.ledger.Accounted
  paced : diary.ledger.engine.Paced settings diary.ledger.now diary.ages
  born_le : ∀ question, (diary.ages question).born ≤ diary.ledger.now
  timed : diary.asked.length = diary.ledger.calls.length
  since : ∀ request ∈ diary.ledger.engine.parked, ∃ time,
    diary.asked[request.waiter.context.number]? = some time ∧
      (diary.ages request.question).born ≤ time

variable {settings : Settings} {diary : Diary κ γ}

omit [DecidableEq κ] in
theorem create_kept (settings : Settings) (ids : Nat → UInt16) :
    Kept settings
      ({ ledger := { engine := .create settings ids } } : Diary κ γ) where
  accounted := Ledger.create_accounted settings ids
  paced := create_paced settings ids _
  born_le := fun _ => Nat.le_refl 0
  timed := rfl
  since := by simp [parked, create]

theorem perform_asked (diary : Diary κ γ) (event : Event κ γ) :
    (diary.perform event).asked = diary.asked ++
      (event.calls
        ((diary.step event).effect.mapContext Numbered.context).resolution?).map
        fun _ => diary.ledger.now := by
  simp only [perform, Ledger.act, Ledger.take, List.drop_left]
  rfl

omit [DecidableEq κ] in
theorem entry?_of_parked {engine : Engine κ γ} (hkeyed : engine.Keyed)
    {request : Request κ γ} (hparked : request ∈ engine.parked) :
    (engine.entry? request.question).isSome = true := by
  obtain ⟨entry, hentry, hrequest⟩ := List.mem_flatMap.mp hparked
  obtain ⟨waiter, -, rfl⟩ := List.mem_map.mp hrequest
  rw [hkeyed.entry?_of_mem hentry]
  rfl

theorem Kept.admitted (hkept : diary.Kept settings) {event : Event κ γ}
    {request : Request κ (Numbered γ)}
    (hadmitted : request ∈ (diary.ledger.numbered event).admitted
      (diary.step event).effect.resolution?) :
    (diary.perform event).asked[request.waiter.context.number]? =
      some diary.ledger.now := by
  rw [perform_asked]
  generalize (diary.step event).effect = effect at hadmitted
  unfold Event.admitted at hadmitted
  split at hadmitted
  next hevent hresolution =>
    cases event <;> cases hevent
    obtain rfl := List.mem_singleton.mp hadmitted
    rw [List.getElem?_append_right (Nat.le_of_eq hkept.timed), hkept.timed,
      Nat.sub_self]
    simp [Effect.mapContext, hresolution, Event.calls]
  next => cases hadmitted

theorem Kept.perform (hkept : diary.Kept settings) (event : Event κ γ)
    (hpaced : (diary.step event).after.Paced settings
      (event.clock diary.ledger.now) (noteAges diary.ages (diary.step event))) :
    (diary.perform event).Kept settings := by
  have hmove :=
    diary.ledger.engine.perform_move diary.ledger.now
      (diary.ledger.numbered event)
  have hclock : diary.ledger.now ≤ event.clock diary.ledger.now := by
    cases event with
    | wait ms => exact Nat.le_add_right _ _
    | _ => exact Nat.le_refl _
  refine ⟨hkept.accounted.take hmove, hpaced, ?_, ?_, ?_⟩
  · intro question
    exact Nat.le_trans (noteAges_born_le (hkept.born_le question)) hclock
  · rw [perform_asked, List.length_append, List.length_map, hkept.timed]
    exact List.length_append.symm
  · intro request hrequest
    have hmem : request ∈ diary.ledger.engine.parked ++
        (diary.ledger.numbered event).admitted
        (diary.step event).effect.resolution? := by
      apply (hmove.parked_perm hkept.accounted.armed.keyed).mem_iff.mpr
      exact List.mem_append_left _ (List.mem_append_left _ hrequest)
    rcases List.mem_append.mp hmem with hold | hadmitted
    · obtain ⟨time, htime, hborn⟩ := hkept.since request hold
      refine ⟨time, ?_, ?_⟩
      · obtain ⟨hlt, -⟩ := List.getElem?_eq_some_iff.mp htime
        rw [perform_asked, List.getElem?_append_left hlt, htime]
      · have hentry := entry?_of_parked hkept.accounted.armed.keyed hold
        have hsame :
            (noteAges diary.ages (diary.step event) request.question).born =
            (diary.ages request.question).born := noteAges_born hentry
        exact hsame.symm ▸ hborn
    · exact ⟨diary.ledger.now, hkept.admitted hadmitted,
        noteAges_born_le (hkept.born_le request.question)⟩

theorem Kept.act (hkept : diary.Kept settings) (act : Act κ γ) :
    (diary.act act).Kept settings := by
  cases act with
  | perform event =>
      apply hkept.perform
      have hnext := (show (diary.step (event.held diary.ledger.engine
        diary.ledger.now)).before.Paced settings _ _ from hkept.paced).next
          (diary.ledger.engine.perform_move diary.ledger.now _)
      cases event with
      | wait ms => exact hnext.wait ms
      | _ => exact hnext
  | hand =>
      have haccounted := hkept.accounted.hand
      cases hinHand : diary.ledger.inHand with
      | nil =>
          simp only [Diary.act, Ledger.act, hinHand]
          exact hkept
      | cons delivery inHand =>
          simp only [Diary.act, Ledger.hand_eq hinHand] at haccounted ⊢
          exact ⟨haccounted, hkept.paced, hkept.born_le, hkept.timed,
            hkept.since⟩

theorem run_kept (settings : Settings) (ids : Nat → UInt16)
    (acts : List (Act κ γ)) :
    (run settings ids acts).Kept settings := by
  induction acts using List.reverseRecOn with
  | nil => exact create_kept settings ids
  | append_singleton acts act ih =>
      rw [run, List.foldl_append]
      exact ih.act act

omit [DecidableEq κ] in
/-- The entry of a request that waits has not used up the time that its settings
allow. -/
theorem Kept.alarm_of_parked (hkept : diary.Kept settings)
    {request : Request κ (Numbered γ)}
    (hparked : request ∈ diary.ledger.engine.parked) {time : Nat}
    (htime : diary.asked[request.waiter.context.number]? = some time) :
    ∃ alarm ∈ diary.ledger.engine.alarms,
      alarm.due ≤ time + 2 * (settings.retries + 1) * settings.timeout := by
  obtain ⟨since, hsince, hborn⟩ := hkept.since request hparked
  obtain rfl : since = time := by
    rw [htime] at hsince
    exact (Option.some.inj hsince).symm
  have hkeyed := hkept.accounted.armed.keyed
  obtain ⟨entry, hentry⟩ :=
    Option.isSome_iff_exists.mp (entry?_of_parked hkeyed hparked)
  obtain ⟨alarm, halarm, hattempt⟩ :=
    hkept.accounted.armed.alarm_of_entry (entry?_mem hentry)
  have hquestion : alarm.question = request.question :=
    (congrArg Prod.snd hattempt).trans (entry?_question hentry)
  refine ⟨alarm, halarm,
    Nat.le_trans (hkept.paced.timely alarm halarm).within ?_⟩
  rw [hquestion, Age.deadline]
  exact Nat.add_le_add hborn
    (Nat.mul_le_mul_right _ (hkept.paced.counts _ _ hentry).le)

end Diary

/-- In every run on a clock that stops at every alarm until it has rung,
whatever the servers do: an entry has made at least one attempt and at most two
for each of its retries and for the first one, or one if all go over TCP; its
alarm is ahead, by no more than the time for one attempt; and it is no older
than the times for its attempts together. Therefore a request that was left to
wait is no longer in the engine, once that time for all attempts is over and no
alarm is due: its answer was handed out or is about to be, or its caller took it
back. -/
theorem no_request_waits_past_its_budget [DecidableEq κ] (settings : Settings)
    (ids : Nat → UInt16) (acts : List (Act κ γ)) :
    let diary := Diary.run settings ids acts
    let ledger := diary.ledger
    let engine := ledger.engine
    (∀ entry ∈ engine.inFlight,
      let age := diary.ages entry.question
      1 ≤ age.sent ∧ age.sent ≤ 2 * (settings.retries + 1) ∧
      (settings.alwaysTcp = true → age.sent ≤ settings.retries + 1) ∧
      (∃ alarm ∈ engine.alarms, alarm.attempt = entry.attempt) ∧
      (∀ alarm ∈ engine.alarms, alarm.attempt = entry.attempt →
        ledger.now ≤ alarm.due ∧ alarm.due ≤ ledger.now + settings.timeout) ∧
      ledger.now ≤ age.born + age.sent * settings.timeout) ∧
    ∀ number call time, ledger.calls[number]? = some call →
    diary.asked[number]? = some time →
      call.resolution = .ok .pending →
      (∀ alarm ∈ engine.alarms, ledger.now < alarm.due) →
      time + 2 * (settings.retries + 1) * settings.timeout ≤ ledger.now →
        ∃ place, ledger.placesOf number = [place] ∧ place.Fits call ∧
          ((∃ delivery ∈ ledger.inHand, place = .inHand delivery) ∨
            (∃ delivery ∈ ledger.handed, place = .handed delivery) ∨
            ∃ waiter, (call.caller, waiter) ∈ ledger.withdrawn ∧
              place = .withdrawn call.caller waiter) := by
  intro diary ledger engine
  have hkept : diary.Kept settings := Diary.run_kept settings ids acts
  have hpaced := hkept.paced
  refine ⟨?_, ?_⟩
  · intro entry hentry age
    have hcounts :=
      hpaced.counts entry.question entry
        (hpaced.armed.keyed.entry?_of_mem hentry)
    obtain ⟨alarm, halarm, hattempt⟩ := hpaced.armed.alarm_of_entry hentry
    refine ⟨hcounts.pos, hcounts.le, hcounts.le_of_alwaysTcp,
      ⟨alarm, halarm, hattempt⟩, ?_, ?_⟩
    · intro alarm halarm _
      exact ⟨(hpaced.timely alarm halarm).ahead,
        (hpaced.timely alarm halarm).soon⟩
    · obtain ⟨hahead, -, hwithin⟩ := hpaced.timely alarm halarm
      have hquestion : alarm.question = entry.question :=
        congrArg Prod.snd hattempt
      rw [hquestion] at hwithin
      exact Nat.le_trans hahead hwithin
  · intro number call time hcall htime hpending hdue hover
    obtain ⟨place, hplaces, hfits⟩ :=
      Ledger.placesOf_of_pending hkept.accounted hcall hpending
    have hfound : place ∈ ledger.placesOf number :=
      hplaces ▸ List.mem_singleton_self place
    obtain ⟨hmem, hnumber⟩ := List.mem_filter.mp hfound
    refine ⟨place, hplaces, hfits, ?_⟩
    rcases Ledger.mem_places.mp hmem with
      ⟨request, hparked, rfl⟩ | ⟨delivery, hinHand, rfl⟩ |
      ⟨delivery, hhanded, rfl⟩ | ⟨⟨caller, waiter⟩, hwithdrawn, rfl⟩
    · -- It would have an alarm that is overdue.
      rw [← eq_of_beq hnumber] at htime
      obtain ⟨alarm, halarm, hlate⟩ := hkept.alarm_of_parked hparked htime
      have hahead := hdue alarm halarm
      exact absurd (Nat.lt_of_lt_of_le hahead (Nat.le_trans hlate hover))
        (Nat.lt_irrefl _)
    · exact .inl ⟨delivery, hinHand, rfl⟩
    · exact .inr (.inl ⟨delivery, hhanded, rfl⟩)
    · obtain ⟨-, -, (rfl : caller = call.caller)⟩ := hfits
      exact .inr (.inr ⟨waiter, hwithdrawn, rfl⟩)

end Engine

end DnsForwarder
