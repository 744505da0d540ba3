import DnsForwarder.Proofs.Engine.Apart
import DnsForwarder.Proofs.Engine.Budget
import DnsForwarder.Proofs.Simulation.Agenda
import DnsForwarder.Proofs.Simulation.Calls
import Mathlib.Algebra.GroupWithZero.Nat

/-! How a simulated world works off what is due. Every piece of work is about
the current attempt of an entry, and there are no more of them than the bound on
them says, so nothing is left over. -/

namespace DnsForwarder

variable {κ γ : Type}

namespace InFlight

/-- How many attempts an entry can still make, with the current one: two for
every retry that is left and for this one, or one where it goes over TCP. -/
def attemptsLeft (settings : Settings) (entry : InFlight κ γ) : Nat :=
  2 * (settings.retries - entry.retriesDone) +
    match entry.protocol with | .udp => 2 | .tcp => 1

/-- How many pieces of work an entry can still make: a query goes out and an
attempt ends, for every attempt. -/
def chores (settings : Settings) (begun : Nat) (entry : InFlight κ γ) : Nat :=
  if entry.generation ≤ begun then 2 * entry.attemptsLeft settings - 1
  else 2 * entry.attemptsLeft settings

theorem attemptsLeft_pos (settings : Settings) (entry : InFlight κ γ) :
    0 < entry.attemptsLeft settings := by
  unfold attemptsLeft
  split <;> omega

theorem attemptsLeft_le (settings : Settings) (entry : InFlight κ γ) :
    entry.attemptsLeft settings ≤ 2 * (settings.retries + 1) := by
  unfold attemptsLeft
  split <;> omega

theorem chores_le (settings : Settings) (begun : Nat) (entry : InFlight κ γ) :
    entry.chores settings begun ≤ 4 * (settings.retries + 1) := by
  have hattempts := entry.attemptsLeft_le settings
  unfold chores
  split <;> omega

theorem chores_pos (settings : Settings) (begun : Nat) (entry : InFlight κ γ) :
    0 < entry.chores settings begun := by
  have hattempts := entry.attemptsLeft_pos settings
  unfold chores
  split <;> omega

variable {settings : Settings} {begun : Nat} {entry : InFlight κ γ}

theorem chores_sent_lt {latest : Nat} (hunsent : begun < entry.generation)
    (hsent : entry.generation ≤ latest) :
    entry.chores settings latest < entry.chores settings begun := by
  have hattempts := entry.attemptsLeft_pos settings
  rw [chores, if_pos hsent, chores, if_neg (Nat.not_le_of_lt hunsent)]
  omega

theorem attemptsLeft_again_lt {ending : AttemptEnd} {server : Nat}
    {protocol : Protocol} {retriesDone : Nat}
    (hagain : entry.sequel settings ending = .again server protocol retriesDone)
    (generation : Nat) :
    attemptsLeft settings
      { entry with server, protocol, retriesDone, generation } <
      entry.attemptsLeft settings := by
  unfold attemptsLeft
  rcases sequel_again hagain with ⟨hleft, rfl, -⟩ | ⟨hudp, rfl, rfl⟩
  · simp only
    split <;> split <;> omega
  · simp only [hudp]
    omega

theorem chores_again_lt {ending : AttemptEnd} {server : Nat}
    {protocol : Protocol} {retriesDone generation : Nat}
    (hagain : entry.sequel settings ending = .again server protocol retriesDone)
    (hsent : entry.generation ≤ begun) (hunsent : begun < generation) :
    chores settings begun
      { entry with server, protocol, retriesDone, generation } <
      entry.chores settings begun := by
  have hattempts := attemptsLeft_again_lt hagain generation
  rw [chores, if_neg (Nat.not_le_of_lt hunsent), chores, if_pos hsent]
  omega

end InFlight

namespace Engine

variable {engine : Engine κ γ} {entry : InFlight κ γ} {question : Question}
  {settings : Settings} {questions : List Question} {begun generation now : Nat}
  {exchange : Exchange}

theorem Armed.entry_of_exchange (harmed : engine.Armed)
    (hexchange : exchange ∈ engine.exchanges) :
    ∃ entry ∈ engine.inFlight, entry.exchange = exchange :=
  List.mem_map.mp (harmed.serves.exchanges.mem_iff.mp hexchange)

theorem Armed.exchange_mem (harmed : engine.Armed)
    (hentry : entry ∈ engine.inFlight) :
    entry.exchange ∈ engine.exchanges :=
  harmed.serves.exchanges.mem_iff.mpr (List.mem_map_of_mem hentry)

theorem Armed.eq_of_generation (harmed : engine.Armed) {other : InFlight κ γ}
    (hentry : entry ∈ engine.inFlight) (hother : other ∈ engine.inFlight)
    (hsame : entry.generation = other.generation) : entry = other :=
  List.inj_on_of_nodup_map harmed.serves.distinct hentry hother hsame

theorem current?_of_entry? (hentry : engine.entry? question = some entry) :
    engine.current? question entry.generation = some entry := by
  simp [current?, hentry]

def chores (settings : Settings) (begun : Nat) (engine : Engine κ γ) : Nat :=
  (engine.inFlight.map (InFlight.chores settings begun)).sum

theorem chores_le_mul (settings : Settings) (begun : Nat)
    (engine : Engine κ γ) :
    engine.chores settings begun ≤ 4 * (settings.retries + 1) *
      engine.inFlight.length := by
  rw [chores]
  induction engine.inFlight with
  | nil => exact Nat.le_refl 0
  | cons entry entries ih =>
      rw [List.map_cons, List.sum_cons, List.length_cons, Nat.mul_succ,
        Nat.add_comm]
      exact Nat.add_le_add ih (entry.chores_le settings begun)

theorem Split.chores {front back : List (InFlight κ γ)}
    (hsplit : Split engine.inFlight entry front back) (settings : Settings)
    (begun : Nat) :
    engine.chores settings begun =
      (front.map (InFlight.chores settings begun)).sum +
        (entry.chores settings begun +
        (back.map (InFlight.chores settings begun)).sum) := by
  rw [Engine.chores, hsplit.eq, List.map_append, List.sum_append, List.map_cons,
    List.sum_cons]

theorem onEnd_chores_lt (harmed : engine.Armed)
    (hcurrent : engine.current? question generation = some entry)
    (hsent : generation ≤ begun) (hbegun : begun ≤ engine.generations)
    (now : Nat) (ending : AttemptEnd) :
    (engine.onEnd now question generation ending).1.chores
      engine.settings begun <
      engine.chores engine.settings begun := by
  obtain ⟨hentry, rfl⟩ := entry?_of_current? hcurrent
  obtain ⟨front, back, hsplit⟩ := harmed.keyed.split hentry
  have hended :
      Split (engine.afterEnd entry.generation ending).inFlight entry front
      back := hsplit
  rw [onEnd_of_current hcurrent, hsplit.chores]
  cases hsequel : entry.sequel engine.settings ending with
  | again server protocol retriesDone =>
      have hless :=
        InFlight.chores_again_lt hsequel hsent (Nat.lt_succ_of_le hbegun)
      rw [proceed, Engine.chores, hended.launch_inFlight now (by rfl),
        List.map_append, List.sum_append, List.map_cons, List.sum_cons]
      exact Nat.add_lt_add_left (Nat.add_lt_add_right hless _) _
  | answered answer =>
      have hpos := entry.chores_pos engine.settings begun
      rw [proceed, Engine.chores, hended.settle_inFlight, List.map_append,
        List.sum_append]
      omega

theorem chores_begun_lt (harmed : engine.Armed)
    (hexchange : exchange ∈ engine.exchanges)
    (hunsent : begun < exchange.generation)
    (hleast : ∀ other ∈ engine.exchanges, begun < other.generation →
      exchange.generation ≤ other.generation)
    (settings : Settings) :
    engine.chores settings exchange.generation <
      engine.chores settings begun := by
  obtain ⟨entry, hentry, rfl⟩ := harmed.entry_of_exchange hexchange
  obtain ⟨front, back, hsplit⟩ :=
    harmed.keyed.split (harmed.keyed.entry?_of_mem hentry)
  have hless : entry.chores settings entry.generation <
      entry.chores settings begun :=
    entry.chores_sent_lt hunsent (Nat.le_refl _)
  have hothers : ∀ other ∈ front ++ back,
      other.chores settings entry.generation = other.chores settings begun := by
    intro other hother
    have hmem : other ∈ engine.inFlight := by
      rw [hsplit.eq]
      exact (List.perm_middle.mem_iff).mpr (List.mem_cons_of_mem _ hother)
    have hdifferent : other.generation ≠ entry.generation := fun hsame =>
      hsplit.ne_of_mem other hother
        (congrArg _ (harmed.eq_of_generation hmem hentry hsame))
    have hsame : other.generation ≤ entry.generation ↔
        other.generation ≤ begun := by
      have hlate := hleast other.exchange (harmed.exchange_mem hmem)
      simp only [InFlight.exchange] at hlate hunsent
      omega
    simp only [InFlight.chores, hsame]
  rw [hsplit.chores, hsplit.chores]
  simp only [InFlight.exchange]
  rw [List.map_congr_left fun other hother =>
    hothers other (List.mem_append_left _ hother),
    List.map_congr_left fun other hother =>
      hothers other (List.mem_append_right _ hother)]
  exact Nat.add_lt_add_left (Nat.add_lt_add_right hless _) _

end Engine

namespace Simulation.World

variable {world next : World κ γ (Log κ γ)} {settings : Settings}
  {questions : List Question} {exchange : Exchange} {due : Due} {limit : Nat}
  {task : Task}

/-- A world whose queries have gone out in the order of their attempts. What is
on its way back belongs to attempts that were made, and to the questions of
their entries. -/
structure Sound (settings : Settings) (questions : List Question)
    (world : World κ γ (Log κ γ)) :
    Prop where
  orderly : world.engine.Orderly settings questions
  begun_le : world.begun ≤ world.engine.generations
  arrivals_le : ∀ arrival ∈ world.arrivals, arrival.generation ≤ world.begun
  arrivals_for : ∀ arrival ∈ world.arrivals, ∀ entry ∈ world.engine.inFlight,
    entry.generation = arrival.generation → entry.question = arrival.question

theorem create_sound
    (hroom : questions.dedup.length ≤ settings.cacheMaxEntries)
    (ids : Nat → UInt16) (nameServers : NameServers) :
    (create (.create settings ids) [] nameServers : World κ γ (Log κ γ)).Sound
      settings
      questions where
  orderly := Engine.create_orderly hroom ids
  begun_le := Nat.le_refl 0
  arrivals_le := List.forall_mem_nil _
  arrivals_for := List.forall_mem_nil _

namespace Sound

theorem current (hsound : world.Sound settings questions)
    (hdue : due ∈ world.dues) :
    ∃ entry, world.engine.current? due.question due.generation =
      some entry := by
  have harmed := hsound.orderly.armed
  rcases mem_dues.mp hdue with
    ⟨arrival, harrival, ⟨exchange, hexchange, hgeneration⟩, rfl⟩ |
    ⟨alarm, halarm, rfl⟩
  · obtain ⟨entry, hentry, rfl⟩ := harmed.entry_of_exchange hexchange
    have hquestion :=
      hsound.arrivals_for arrival harrival entry hentry hgeneration
    refine ⟨entry, ?_⟩
    have hcurrent :=
      Engine.current?_of_entry? (harmed.keyed.entry?_of_mem hentry)
    rwa [hquestion, show entry.generation = arrival.generation from hgeneration]
      at hcurrent
  · obtain ⟨entry, hentry, hgeneration⟩ := harmed.entry_of_alarm halarm
    have hcurrent := Engine.current?_of_entry? hentry
    rw [hgeneration] at hcurrent
    exact ⟨entry, hcurrent⟩

theorem perform [DecidableEq κ] (hsound : world.Sound settings questions)
    {event : Engine.Event κ γ} (hasks : event.AsksOf questions) (now : Nat)
    (hengine : next.engine = (world.engine.perform now event).engine)
    (hbegun : next.begun = world.begun)
    (harrivals : next.arrivals ⊆ world.arrivals) :
    next.Sound settings questions := by
  have hmove := Engine.perform_move world.engine now event
  refine ⟨hengine ▸ hsound.orderly.perform now hasks, ?_, ?_, ?_⟩
  · rw [hbegun, hengine]
    exact Nat.le_trans hsound.begun_le hmove.generations_le
  · rw [hbegun]
    exact fun arrival harrival =>
      hsound.arrivals_le arrival (harrivals harrival)
  · intro arrival harrival entry hentry hgeneration
    have hle :=
      Nat.le_trans (hsound.arrivals_le arrival (harrivals harrival))
        hsound.begun_le
    rw [hengine] at hentry
    cases hmove.descends hentry with
    | kept old hold hquestion _ _ hattempt =>
        rw [hquestion]
        apply hsound.arrivals_for arrival (harrivals harrival) old hold
        omega
    | opened caller context flags _ _ hattempt => omega

end Sound

theorem unsent?_first (hrising : Engine.Rising world.engine.exchanges)
    (hunsent : world.unsent? = some exchange) :
    exchange ∈ world.engine.exchanges ∧ world.begun < exchange.generation ∧
      ∀ other ∈ world.engine.exchanges, world.begun < other.generation →
        exchange.generation ≤ other.generation := by
  obtain ⟨hnew, front, back, hsplit, hfront⟩ :=
    List.find?_eq_some_iff_append.mp hunsent
  rw [Engine.Rising, hsplit] at hrising
  refine ⟨hsplit ▸ List.mem_append_right _ List.mem_cons_self,
    by simpa using hnew, ?_⟩
  intro other hother hlate
  rw [hsplit] at hother
  rcases List.mem_append.mp hother with hmem | hrest
  · exact absurd hlate (by simpa using hfront other hmem)
  · rcases List.mem_cons.mp hrest with rfl | hback
    · exact Nat.le_refl _
    · exact Nat.le_of_lt
        (List.rel_of_pairwise_cons (List.pairwise_append.mp hrising).2.1 hback)

def began (world : World κ γ (Log κ γ)) (exchange : Exchange) :
    World κ γ (Log κ γ) :=
  let server? := world.engine.settings.servers[exchange.server]?
  { world with
    begun := exchange.generation
    sent :=
      world.sent ++ [⟨world.now, server?, exchange.protocol, exchange.query⟩]
    history := world.history ++ [exchange] }

def reply (world : World κ γ (Log κ γ)) (exchange : Exchange) : Reply :=
  world.nameServers world.history exchange

inductive Sends (world : World κ γ (Log κ γ)) (exchange : Exchange)
    (reply : Reply) :
    World κ γ (Log κ γ) → Prop
  | silent (hresult : reply.result? exchange.query = none) :
      Sends world exchange reply (world.began exchange)
  | prompt (result : Except Error Octets)
      (hresult : reply.result? exchange.query = some result)
      (hdelay : reply.delay = 0) :
      Sends world exchange reply
        ((world.began exchange).apply recorder
          (world.engine.onEnd world.now exchange.question exchange.generation
            (.result result)))
  | delayed (result : Except Error Octets)
      (hresult : reply.result? exchange.query = some result)
      (hdelay : reply.delay ≠ 0) :
      Sends world exchange reply
        { world.began exchange with
          arrivals :=
            world.arrivals ++
              [⟨exchange.generation, exchange.question,
                world.now + reply.delay, result⟩] }

theorem send_sends (world : World κ γ (Log κ γ)) (exchange : Exchange) :
    Sends world exchange (world.reply exchange)
      (world.send recorder exchange) := by
  rw [send, ← reply]
  split
  next hresult => exact .silent hresult
  next result hresult =>
    split
    next hdelay => exact .prompt result hresult hdelay
    next hdelay => exact .delayed result hresult hdelay

namespace Sound

variable [DecidableEq κ]

theorem ended (hsound : world.Sound settings questions) (now : Nat)
    (question : Question) (generation : Nat) (ending : AttemptEnd)
    (hengine : next.engine =
      (world.engine.onEnd now question generation ending).1)
    (hbegun : next.begun = world.begun)
    (harrivals : next.arrivals ⊆ world.arrivals) :
    next.Sound settings questions := by
  have hasks :
      (Engine.Event.ended question generation ending : Engine.Event κ γ).AsksOf
      questions := trivial
  exact hsound.perform hasks now hengine hbegun harrivals

omit [DecidableEq κ] in
theorem began (hsound : world.Sound settings questions)
    (hunsent : world.unsent? = some exchange) :
    (world.began exchange).Sound settings questions := by
  obtain ⟨hexchange, hlate, -⟩ := unsent?_first hsound.orderly.rising hunsent
  refine ⟨hsound.orderly, hsound.orderly.armed.generation_le hexchange, ?_,
    hsound.arrivals_for⟩
  intro arrival harrival
  exact Nat.le_of_lt
    (Nat.lt_of_le_of_lt (hsound.arrivals_le arrival harrival) hlate)

theorem sends (hsound : world.Sound settings questions)
    (hunsent : world.unsent? = some exchange) {reply : Reply}
    (hsends : Sends world exchange reply next) :
    next.Sound settings questions := by
  have hbegan := hsound.began hunsent
  cases hsends with
  | silent => exact hbegan
  | prompt result =>
      rw [apply_recorder]
      exact hbegan.ended world.now exchange.question exchange.generation
        (.result result) rfl rfl (List.Subset.refl _)
  | delayed result =>
      have hexchange := (unsent?_first hsound.orderly.rising hunsent).1
      refine ⟨hbegan.orderly, hbegan.begun_le, ?_, ?_⟩
      · intro arrival harrival
        rcases List.mem_append.mp harrival with hold | hnew
        · exact hbegan.arrivals_le arrival hold
        · rw [List.mem_singleton.mp hnew]
          exact Nat.le_refl exchange.generation
      · intro arrival harrival entry hentry hgeneration
        rcases List.mem_append.mp harrival with hold | hnew
        · exact hbegan.arrivals_for arrival hold entry hentry hgeneration
        · rw [List.mem_singleton.mp hnew] at hgeneration ⊢
          obtain ⟨owner, howner, rfl⟩ :=
            hsound.orderly.armed.entry_of_exchange hexchange
          exact congrArg InFlight.question
            (hsound.orderly.armed.eq_of_generation hentry howner hgeneration)

theorem carryOut (hsound : world.Sound settings questions)
    (htask : world.task? limit = some task) :
    (world.carryOut recorder task).Sound settings questions := by
  cases task with
  | send exchange =>
      exact hsound.sends (task?_send htask) (send_sends world exchange)
  | meet due =>
      rw [World.carryOut, meet_eq, apply_recorder]
      exact hsound.ended (max world.now due.time) due.question due.generation
        due.ending rfl rfl
        fun arrival => Due.mem_leaves

omit [DecidableEq κ] in
/-- With every piece of work there is less to do. -/
theorem chores_lt (hsound : world.Sound settings questions)
    (hnow : world.now ≤ limit) (htask : world.task? limit = some task) :
    (world.carryOut recorder task).engine.chores settings
      (world.carryOut recorder task).begun <
      world.engine.chores settings world.begun := by
  have harmed := hsound.orderly.armed
  have hsettings := hsound.orderly.settings_eq
  cases task with
  | meet due =>
      have hready := task?_meet hnow htask
      obtain ⟨entry, hcurrent⟩ := hsound.current hready.mem
      rw [World.carryOut, meet_eq, apply_recorder, ← hsettings]
      exact Engine.onEnd_chores_lt harmed hcurrent hready.sent
        hsound.begun_le _ _
  | send exchange =>
      have hunsent := task?_send htask
      obtain ⟨hexchange, hlate, hfirst⟩ :=
        unsent?_first hsound.orderly.rising hunsent
      have hless :=
        Engine.chores_begun_lt harmed hexchange hlate hfirst settings
      have hsends := send_sends world exchange
      generalize world.reply exchange = reply at hsends
      rw [World.carryOut]
      generalize world.send recorder exchange = next at hsends ⊢
      cases hsends with
      | silent | delayed => exact hless
      | prompt result =>
          obtain ⟨entry, hentry, rfl⟩ := harmed.entry_of_exchange hexchange
          have hcurrent :=
            Engine.current?_of_entry? (harmed.keyed.entry?_of_mem hentry)
          rw [apply_recorder, ← hsettings]
          refine Nat.lt_trans ?_ (hsettings ▸ hless)
          exact Engine.onEnd_chores_lt harmed hcurrent
            (Nat.le_refl entry.generation)
            (harmed.serves.bounded entry hentry) _ _

end Sound

theorem carryOut_now (hnow : world.now ≤ limit)
    (htask : world.task? limit = some task) :
    (world.carryOut recorder task).now ≤ limit := by
  cases task with
  | meet due =>
      rw [carryOut, meet_eq, apply_recorder]
      exact Nat.max_le.mpr ⟨hnow, (task?_meet hnow htask).time_le⟩
  | send exchange =>
      have hsends := send_sends world exchange
      generalize world.reply exchange = reply at hsends
      rw [carryOut]
      generalize world.send recorder exchange = next at hsends ⊢
      cases hsends with
      | silent | delayed => exact hnow
      | prompt result =>
          rw [apply_recorder]
          exact hnow

/-- What every piece of work keeps is there when all is worked off, and then
nothing is left. -/
theorem workOff_invariant [DecidableEq κ]
    (motive : World κ γ (Log κ γ) → Prop)
    (hcarryOut : ∀ world task, world.Sound settings questions →
      world.now ≤ limit → world.task? limit = some task → motive world →
      motive (world.carryOut recorder task))
    {steps : Nat} (hsound : world.Sound settings questions)
    (hnow : world.now ≤ limit)
    (hsteps : world.engine.chores settings world.begun < steps)
    (hmotive : motive world) :
    let last := workOff recorder limit steps world
    last.Sound settings questions ∧ last.now ≤ limit ∧ last.task? limit = none ∧
    motive last := by
  -- The steps do not run out, since there are more of them than chores.
  induction steps generalizing world with
  | zero => exact absurd hsteps (Nat.not_lt_zero _)
  | succ steps ih =>
      rw [workOff, work?_eq]
      cases htask : world.task? limit with
      | none => exact ⟨hsound, hnow, htask, hmotive⟩
      | some task =>
          have hless := hsound.chores_lt hnow htask
          exact ih (hsound.carryOut htask) (carryOut_now hnow htask) (by omega)
            (hcarryOut world task hsound hnow htask hmotive)

theorem chores_lt_workBound (hsound : world.Sound settings questions) :
    world.engine.chores settings world.begun < world.workBound recorder := by
  have hfollowUps (waiters : List (Waiter κ γ)) :
      waiters.foldr (fun waiter rest =>
        (recorder : Host κ γ (Log κ γ)).followUps waiter.context + rest) 0 =
          0 := by
    induction waiters with
    | nil => rfl
    | cons waiter waiters ih => rw [List.foldr_cons, ih]; rfl
  have hchores := world.engine.chores_le_mul settings world.begun
  rw [workBound, hfollowUps, hsound.orderly.settings_eq]
  refine Nat.lt_succ_of_le
    (Nat.le_trans hchores (Nat.mul_le_mul ?_ (Nat.le_refl _)))
  exact Nat.mul_le_mul_right _ (by decide)

theorem advance_invariant [DecidableEq κ] {ms : Nat}
    (motive : World κ γ (Log κ γ) → Prop)
    (hcarryOut : ∀ before task, before.Sound settings questions →
      before.now ≤ world.now + ms → before.task? (world.now + ms) = some task →
      motive before → motive (before.carryOut recorder task))
    (hsound : world.Sound settings questions) (hmotive : motive world) :
    ∃ last : World κ γ (Log κ γ), last.Sound settings questions ∧
      last.now ≤ world.now + ms ∧
      last.task? (world.now + ms) = none ∧ motive last ∧
      world.advance recorder ms = { last with now := world.now + ms } ∧
      (world.advance recorder ms).Sound settings questions := by
  obtain ⟨hlast, hnow, htask, hmotive⟩ :=
    workOff_invariant motive hcarryOut hsound
    (Nat.le_add_right world.now ms) (chores_lt_workBound hsound) hmotive
  refine ⟨_, hlast, hnow, htask, hmotive, rfl, ?_⟩
  exact ⟨hlast.orderly, hlast.begun_le, hlast.arrivals_le, hlast.arrivals_for⟩

end Simulation.World

end DnsForwarder
