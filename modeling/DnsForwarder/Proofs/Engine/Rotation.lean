import DnsForwarder.Proofs.Engine.Freshness
import DnsForwarder.Proofs.Engine.Positions
import DnsForwarder.Proofs.Engine.Turnover

/-! The turns of the servers. Two positions go around the list: that of the
engine moves with every entry that is made, so entries begin with one server
after the other; that of an entry moves with every retry, so an entry that fails
has gone around. -/

namespace DnsForwarder

theorem Outcome.answer?_status {settings : Settings} {question : Question}
    {outcome : Outcome} {answer : Answer}
    (hanswer : outcome.answer? settings question = some answer) :
    answer.status ∈ [Status.ok, .noData, .noDomain] := by
  cases outcome with
  | matching response =>
      simp only [answer?] at hanswer
      split at hanswer
      next =>
        cases hanswer
        cases response.hasRecordsFor question <;> simp [Answer.ofRecords]
      next =>
        split at hanswer
        next =>
          cases hanswer
          simp [Answer.ofRecords]
        next => cases hanswer
  | _ => cases hanswer

section Course

variable {settings : Settings} {question : Question} {server : Nat}
  {answer : Answer}

/-- An entry that fails from some attempt on asks as many servers after it as
retries are left, each behind the one before. -/
theorem course_asks (outcomes : List Outcome) (protocol : Protocol)
    (retriesDone : Nat) (hserver : server < settings.servers.length)
    (hfailed :
      (course settings question server protocol retriesDone outcomes).answer? =
      some answer)
    (hstatus : answer.status ∉ [Status.ok, .noData, .noDomain]) (behind : Nat)
    (hbehind : behind = 0 ∨ retriesDone + behind ≤ settings.retries) :
    ∃ asked ∈ (course settings question server protocol retriesDone
      outcomes).attempts,
      asked.1 = (server + behind) % settings.servers.length := by
  -- A truncated response has the same server asked again, a failed attempt the
  -- one behind it.
  induction outcomes generalizing server protocol retriesDone behind with
  | nil => cases hfailed
  | cons outcome outcomes ih =>
      have hself : server = (server + 0) % settings.servers.length :=
        (Nat.mod_eq_of_lt hserver).symm
      rw [course] at hfailed ⊢
      split at hfailed
      next htcp =>
        rw [if_pos htcp]
        obtain ⟨asked, hasked, hposition⟩ :=
          ih .tcp retriesDone hserver hfailed behind hbehind
        exact ⟨asked, List.mem_append_right _ hasked, hposition⟩
      next htcp =>
        rw [if_neg htcp]
        cases hanswer : outcome.answer? settings question with
        | some settled =>
            rw [hanswer] at hfailed
            cases hfailed
            exact absurd (Outcome.answer?_status hanswer) hstatus
        | none =>
            rw [hanswer] at hfailed
            simp only at hfailed ⊢
            split at hfailed
            next hretries =>
              rw [if_pos hretries]
              cases behind with
              | zero =>
                  exact ⟨_, List.mem_append_left _ (List.mem_singleton_self _),
                    hself⟩
              | succ behind =>
                  have hservers := Nat.lt_of_le_of_lt (Nat.zero_le _) hserver
                  obtain ⟨asked, hasked, hposition⟩ := ih _ (retriesDone + 1)
                    (Nat.mod_lt (server + 1) hservers) hfailed behind (by omega)
                  refine ⟨asked, List.mem_append_right _ hasked,
                    hposition.trans ?_⟩
                  rw [Nat.mod_add_mod, Nat.add_assoc, Nat.add_comm 1]
            next hretries =>
              rw [if_neg hretries]
              obtain rfl : behind = 0 := by omega
              exact ⟨_, List.mem_singleton_self _, hself⟩

theorem exists_behind {first last count : Nat} (hfirst : first < count)
    (hlast : last < count) :
    ∃ behind < count, (first + behind) % count = last := by
  by_cases hbefore : first ≤ last
  · exact ⟨last - first, by omega,
      by rw [Nat.add_sub_cancel' hbefore, Nat.mod_eq_of_lt hlast]⟩
  · refine ⟨last + count - first, by omega, ?_⟩
    rw [Nat.add_sub_cancel' (by omega), Nat.add_mod_right,
      Nat.mod_eq_of_lt hlast]

/-- An entry that failed with enough retries has asked every server. -/
theorem Life.asked_all {life : Life} {ids : Nat → UInt16}
    (hcourse : life.course settings ids = ⟨life.sent, some answer⟩)
    (hfirst : life.first.server < settings.servers.length)
    (hstatus : answer.status ∉ [Status.ok, .noData, .noDomain])
    (hretries : settings.servers.length ≤ settings.retries + 1) :
    ∀ server < settings.servers.length, ∃ attempt ∈ life.attempts,
      attempt.server = server := by
  intro server hserver
  obtain ⟨behind, hbehind, rfl⟩ := exists_behind hfirst hserver
  have hanswer := congrArg Course.answer? hcourse
  have hattempts := congrArg Course.attempts hcourse
  rw [Life.course] at hanswer hattempts
  obtain ⟨asked, hasked, hposition⟩ :=
    course_asks _ _ 0 hfirst hanswer hstatus behind (.inr (by omega))
  rw [hattempts, Life.sent] at hasked
  obtain ⟨attempt, hattempt, rfl⟩ := List.mem_map.mp hasked
  exact ⟨attempt, hattempt, hposition⟩

end Course

theorem Life.withEnd_first {κ γ : Type} (life : Life)
    (event : Engine.Event κ γ) :
    (life.withEnd event).first = life.first := by
  rw [withEnd.eq_def]
  split
  next => split <;> rfl
  next => rfl

namespace Engine

variable {κ γ : Type}

/-- What a step has to do with the turns of the servers: nothing, or a request
makes an entry that asks the next server. -/
inductive Step.Rotation (step : Step κ γ) : Prop
  | still (hcreated : step.created = [])
      (hcursor : step.after.nextServer = step.before.nextServer)
  | turned (question : Question) (caller : κ) (context : γ) (flags : Flags)
      (entry : InFlight κ γ)
      (hevent : step.event = .resolve question caller context flags)
      (hentry : step.before.entry? question = none)
      (hresolution : step.effect.resolution? = some (.ok .pending))
      (hcreated : step.created = [entry])
      (hlaunched : step.launched = [entry.exchange])
      (hserver :
        entry.server = step.before.nextServer %
          step.before.settings.servers.length)
      (hcursor :
        step.after.nextServer = (entry.server + 1) %
          step.before.settings.servers.length)

theorem proceed_nextServer (engine : Engine κ γ) (now : Nat)
    (entry : InFlight κ γ) (sequel : Sequel) :
    (engine.proceed now entry sequel).1.nextServer = engine.nextServer := by
  cases sequel <;> simp [proceed, settle, dropEntry, retire]

theorem Step.Valid.rotation [DecidableEq κ] {step : Step κ γ}
    (harmed : step.before.Armed) (hvalid : step.Valid) : step.Rotation := by
  obtain ⟨before, now, event, effect⟩ := step
  have hmove : before.Move now event effect := hvalid
  have hkeyed := harmed.keyed
  cases hmove with
  | aside => exact .still (Keyed.still_of_same hkeyed rfl).created rfl
  | joined question caller context flags cache entry hstarted hentry =>
      exact .still (Keyed.still_of_joined hkeyed hentry rfl).created
        (by simp [Step.after, join])
  | opened question caller context flags cache query hstarted hentry hquery =>
      refine .turned question caller context flags _ rfl hentry rfl
        (Step.created_of_opened hentry rfl)
        (Step.launched_of_opened rfl harmed) rfl ?_
      simp [Step.after, openEntry_eq, turned, firstEntry, newEntry, following]
  | cancelled caller =>
      exact .still (Keyed.still_of_cancelled hkeyed rfl).created rfl
  | proceeded question generation ending entry hcurrent =>
      obtain ⟨front, back, hsplit⟩ :=
        hkeyed.split (entry?_of_current? hcurrent).1
      exact .still (Step.created_of_proceeded hsplit rfl)
        (proceed_nextServer _ _ _ _)
  | stopped => exact .still rfl rfl

def noteOpenings (openings : List (InFlight κ γ × List Exchange))
    (step : Step κ γ) :
    List (InFlight κ γ × List Exchange) :=
  openings ++ step.created.map fun entry => (entry, step.launched)

/-- The entries that were put down began with one server after the other, and
the engine's position is that of the next one. -/
structure InTurns (settings : Settings) (engine : Engine κ γ)
    (openings : List (InFlight κ γ × List Exchange)) : Prop where
  armed : engine.Armed
  inRange : engine.InRange
  settings_eq : engine.settings = settings
  cursor : engine.nextServer = openings.length % settings.servers.length
  turns : ∀ number entry sent, openings[number]? = some (entry, sent) →
    sent = [entry.exchange] ∧ entry.server = number % settings.servers.length

section Runs

variable [DecidableEq κ] {settings : Settings} {step : Step κ γ}
  {openings : List (InFlight κ γ × List Exchange)}

theorem InTurns.next (hturns : InTurns settings step.before openings)
    (hvalid : step.Valid) :
    InTurns settings step.after (noteOpenings openings step) := by
  have hsettings : step.before.settings = settings := hturns.settings_eq
  obtain ⟨hnotes, hcursor⟩ | ⟨entry, hnotes, hserver, hcursor⟩ :
      noteOpenings openings step = openings ∧ step.after.nextServer =
        step.before.nextServer ∨
      ∃ entry : InFlight κ γ, noteOpenings openings step =
      openings ++ [(entry, [entry.exchange])] ∧
        entry.server = openings.length % settings.servers.length ∧
        step.after.nextServer = (openings.length + 1) %
        settings.servers.length := by
    cases Step.Valid.rotation hturns.armed hvalid with
    | still hcreated hcursor =>
        exact .inl ⟨by simp [noteOpenings, hcreated], hcursor⟩
    | turned question caller context flags entry hevent hentry hresolution
      hcreated hlaunched hserver hcursor =>
        rw [hsettings, hturns.cursor, Nat.mod_mod] at hserver
        rw [hsettings, hserver, Nat.mod_add_mod] at hcursor
        exact .inr ⟨entry, by simp [noteOpenings, hcreated, hlaunched],
          hserver, hcursor⟩
  · rw [hnotes]
    exact ⟨hturns.armed.move hvalid, hturns.inRange.move hvalid,
      hvalid.settings_eq.trans hsettings, hcursor.trans hturns.cursor,
      hturns.turns⟩
  · rw [hnotes]
    refine ⟨hturns.armed.move hvalid, hturns.inRange.move hvalid,
      hvalid.settings_eq.trans hsettings, ?_, ?_⟩
    · rw [hcursor, List.length_append]
      rfl
    · intro number other sent hother
      rcases Nat.lt_trichotomy number openings.length with hlt | rfl | hgt
      · rw [List.getElem?_append_left hlt] at hother
        exact hturns.turns number other sent hother
      · simp only [List.getElem?_concat_length, Option.some.injEq,
          Prod.mk.injEq] at hother
        obtain ⟨rfl, rfl⟩ := hother
        exact ⟨rfl, hserver⟩
      · rw [List.getElem?_eq_none (by rw [List.length_append]; exact hgt)]
          at hother
        cases hother

end Runs

section Lives

variable {question : Question} {sightings : Sightings κ γ} {step : Step κ γ}
  {life : Life}

def Sightings.lives (sightings : Sightings κ γ) : List Life :=
  sightings.past.map Prod.fst ++ sightings.current?.toList

theorem first_of_noteLife
    (hlife : life ∈ (noteLife question sightings step).lives) :
    (∃ old ∈ sightings.lives, old.first = life.first) ∨
      life.first ∈ step.launched := by
  have hold (hmem : life ∈ sightings.lives) :
      (∃ old ∈ sightings.lives, old.first = life.first) ∨
        life.first ∈ step.launched :=
    .inl ⟨life, hmem, rfl⟩
  cases hcurrent : sightings.current? with
  | none =>
      have hpast : sightings.lives = sightings.past.map Prod.fst := by
        simp [Sightings.lives, hcurrent]
      cases hlaunched : step.launchedFor question with
      | nil => exact hold (by simpa [noteLife, hcurrent, hlaunched] using hlife)
      | cons first later =>
          simp only [noteLife, hcurrent, hlaunched, Sightings.lives,
            List.mem_append, Option.mem_toList] at hlife
          rcases hlife with hmem | hnew
          · exact hold (hpast ▸ hmem)
          · cases hnew
            have hfirst : first ∈ step.launchedFor question :=
              by simp [hlaunched]
            exact .inr (List.mem_of_mem_filter hfirst)
  | some current =>
      let grown :=
        (current.withEnd step.event).withAttempts (step.launchedFor question)
      have hgrown : (∃ old ∈ sightings.lives, old.first = grown.first) :=
        ⟨current, by simp [Sightings.lives, hcurrent],
          (current.withEnd_first step.event).symm⟩
      have hcases : life ∈ sightings.past.map Prod.fst ∨ life = grown := by
        simp only [noteLife, hcurrent] at hlife
        split at hlife <;>
          simpa [Sightings.lives, grown, or_comm, eq_comm] using hlife
      rcases hcases with hmem | rfl
      · exact hold (List.mem_append_left _ hmem)
      · exact .inl hgrown

theorem InRange.exchanges {engine : Engine κ γ} (hinRange : engine.InRange)
    (harmed : engine.Armed) :
    ∀ exchange ∈ engine.exchanges, exchange.server <
      engine.settings.servers.length := by
  intro exchange hexchange
  obtain ⟨entry, hentry, rfl⟩ :=
    List.mem_map.mp (harmed.serves.exchanges.mem_iff.mp hexchange)
  exact hinRange.entries entry hentry

end Lives

section Whole

variable [DecidableEq κ] (settings : Settings) (ids : Nat → UInt16)
  (events : List (Event κ γ))

theorem run_inTurns :
    let watched := Watched.run noteOpenings [] settings ids events
    InTurns settings watched.engine watched.notes := by
  refine Watched.run_induction (InTurns settings) ?_ ?_ events
  · exact ⟨create_armed settings ids, create_inRange settings ids, rfl,
      (Nat.zero_mod _).symm,
      nofun⟩
  · intro watched event hturns hmove
    exact InTurns.next hturns hmove

theorem run_lives (question : Question) :
    let watched := Watched.run (noteLife question) {} settings ids events
    Seen settings ids question watched.engine watched.notes ∧
    watched.engine.InRange ∧
      ∀ life ∈ watched.notes.lives, life.first.server <
      settings.servers.length := by
  refine Watched.run_induction (fun engine sightings =>
    Seen settings ids question engine sightings ∧ engine.InRange ∧
      ∀ life ∈ sightings.lives, life.first.server < settings.servers.length)
    ⟨create_seen, create_inRange settings ids, nofun⟩ ?_ events
  rintro watched event ⟨hseen, hinRange, hlives⟩ hmove
  have hnext : Seen settings ids question (watched.step event).after
      (noteLife question watched.notes (watched.step event)) :=
      Seen.next hseen hmove
  have hrange : (watched.step event).after.InRange := hinRange.move hmove
  refine ⟨hnext, hrange, fun life hlife => ?_⟩
  rcases first_of_noteLife hlife with ⟨old, hold, hfirst⟩ | hlaunched
  · rw [← hfirst]
    exact hlives old hold
  · have hexchange :=
      hrange.exchanges hnext.armed _ (List.mem_of_mem_filter hlaunched)
    rwa [hnext.settings_eq] at hexchange

/-- In every run, restarts included: the entries begin with one server after the
other, the first one with the first server, and each sends its first query
there. Only a request that makes an entry moves the position of the engine. All
positions are those of servers, and an engine never takes a remainder by zero
and never looks beyond its list: without servers it cannot be started, and
before it is started it takes no request. With retries for all servers but one
at least, an entry that fails has asked every server, unless it is dropped when
the engine stops. -/
theorem servers_take_turns (question : Question) :
    let watched := Watched.run noteOpenings [] settings ids events
    let engine := watched.engine
    let count := settings.servers.length
    let sightings :=
      (Watched.run (noteLife question) {} settings ids events).notes
    (∀ number entry sent, watched.notes[number]? = some (entry, sent) →
      sent = [entry.exchange] ∧ entry.server = number % count) ∧
    (∀ event,
      let step := watched.step event
      step.created = [] ∧ step.after.nextServer = engine.nextServer ∨
        (∃ entry, step.created = [entry]) ∧
        ∃ asked caller context flags, event =
        .resolve asked caller context flags ∧
          engine.entry? asked = none ∧ step.effect.resolution? =
          some (.ok .pending)) ∧
    ((∀ entry ∈ engine.inFlight, entry.server < count) ∧
      (∀ exchange ∈ engine.exchanges, exchange.server < count) ∧
      ∀ event, engine.perform? watched.now event =
      some (engine.perform watched.now event)) ∧
    ((settings.servers = [] →
        engine.start = .error (.startFailed noServers) ∧
        engine.started = false) ∧
      (engine.started = false → ∀ asked caller context flags,
        engine.resolve watched.now asked caller context flags =
        (engine, .error .notStarted))) ∧
    ∀ life step, (life, step) ∈ sightings.past → step.event ≠ .stop →
      ∃ answer, step.Gives question answer ∧
        (answer.status ∉ [Status.ok, .noData, .noDomain] →
          count ≤ settings.retries + 1 →
          ∀ server < count, ∃ attempt ∈ life.attempts, attempt.server =
          server) := by
  intro watched engine count sightings
  have hturns : InTurns settings engine watched.notes :=
    run_inTurns settings ids events
  have hsettings : engine.settings = settings := hturns.settings_eq
  have hcount : engine.settings.servers.length = count := by rw [hsettings]
  refine ⟨hturns.turns, fun event => ?_, ⟨?_, ?_, ?_⟩,
    ⟨fun hnone => ?_, ?_⟩, ?_⟩
  · have hvalid : (watched.step event).Valid := perform_move _ _ event
    cases Step.Valid.rotation hturns.armed hvalid with
    | still hcreated hcursor => exact .inl ⟨hcreated, hcursor⟩
    | turned asked caller context flags entry hevent hentry
      hresolution hcreated =>
        exact .inr ⟨⟨entry, hcreated⟩, asked, caller, context, flags, hevent,
          hentry, hresolution⟩
  · rw [← hcount]
    exact hturns.inRange.entries
  · rw [← hcount]
    exact hturns.inRange.exchanges hturns.armed
  · exact hturns.inRange.perform?_eq
  · have hnoServers : engine.settings.servers = [] := hsettings ▸ hnone
    refine ⟨if_pos hnoServers, ?_⟩
    cases hstarted : engine.started with
    | false => rfl
    | true =>
        have hservers := hturns.inRange.served hstarted
        rw [hnoServers] at hservers
        cases hservers
  · intro hstarted asked caller context flags
    simp [resolve, hstarted]
  · intro life step hpast hevent
    obtain ⟨hseen, -, hlives⟩ := run_lives settings ids events question
    rcases hseen.past life step hpast with
      ⟨hstop, -⟩ | ⟨answer, hgives, hcourse⟩
    · exact absurd hstop hevent
    · refine ⟨answer, hgives, fun hstatus hretries => ?_⟩
      have hlife : life ∈ sightings.lives :=
        List.mem_append_left _ (List.mem_map_of_mem hpast)
      exact Life.asked_all hcourse (hlives life hlife) hstatus hretries

/-- Two servers, and a retry for the second one. -/
def twoServers : Settings :=
  { Settings.withServer (.v4 ⟨192, 0, 2, 1⟩ 53) with
    servers := [.v4 ⟨192, 0, 2, 1⟩ 53, .v4 ⟨192, 0, 2, 2⟩ 53]
    retries := 1 }

/-- When the engine stops, an entry ends in a failure before it has asked the
second server. -/
theorem stopped_entry_asked_one_server :
    let events : List (Event Unit Unit) :=
      [.start, .resolve addressQuestion () () {}, .stop]
    let watched :=
      Watched.run (noteLife addressQuestion) {} twoServers (fun _ => 0) events
    twoServers.servers.length ≤ twoServers.retries + 1 ∧
      (watched.notes.past.map fun (life, step) =>
        (life.attempts.map Exchange.server,
          step.effect.deliveries.map Delivery.answer)) =
        [([0], [.failure .error 0 addressQuestion])] := by
  decide +kernel

end Whole

end Engine

end DnsForwarder
