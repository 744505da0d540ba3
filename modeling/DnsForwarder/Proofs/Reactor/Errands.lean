import DnsForwarder.Proofs.Reactor.Workplace
import Mathlib.Data.List.Nodup

/-! What becomes of the errands that threads bring to a dispatcher. They run one
after the other in the order in which the queue took them; those that do not run
are dropped at the end, and a thread that waits is told which it was. -/

namespace DnsForwarder

namespace Bridge

variable {α : Type} {bridge : Bridge α}

/-- The task of the bridge is at work, and waits for a signal only if there is
none. -/
structure IsTended (bridge : Bridge α) : Prop where
  present : bridge.watch ≠ .absent
  unended : bridge.watch ≠ .ended
  waiting : bridge.watch = .waiting → bridge.permit = false

theorem IsTended.notify (htended : bridge.IsTended) :
    bridge.notify.IsTended := by
  unfold Bridge.notify
  split
  next => exact ⟨nofun, nofun, nofun⟩
  next hwaiting =>
    exact ⟨htended.present, htended.unended, fun hwatch =>
      absurd hwatch hwaiting⟩

theorem notify_ne_handling (hwatch : bridge.watch ≠ .handling) :
    bridge.notify.watch ≠ .handling := by
  unfold Bridge.notify
  split
  next => nofun
  next => exact hwatch

theorem IsTended.poll (htended : bridge.IsTended)
    (hopen : bridge.closed = false) :
    bridge.poll.IsTended := by
  unfold Bridge.poll
  cases hwatch : bridge.watch with
  | asking =>
      cases hpermit : bridge.permit with
      | true => simpa [hopen] using ⟨nofun, nofun, nofun⟩
      | false => simpa [hopen] using ⟨nofun, nofun, fun _ => rfl⟩
  | woken => simpa [hopen] using ⟨nofun, nofun, nofun⟩
  | absent | waiting | handling | ended => exact htended

theorem IsTended.poll_handling (htended : bridge.IsTended)
    (hopen : bridge.closed = false) (halert : bridge.IsAlert) :
    bridge.poll.watch = .handling := by
  rw [Bridge.poll]
  cases hwatch : bridge.watch with
  | asking =>
      rcases halert with hpermit | hwoken | hhandling
      · simp [hopen, hpermit]
      · simp [hwatch] at hwoken
      · simp [hwatch] at hhandling
  | woken => simp [hopen]
  | handling => exact hwatch
  | waiting =>
      rcases halert with hpermit | hwoken | hhandling
      · simp [htended.waiting hwatch] at hpermit
      · simp [hwatch] at hwoken
      · simp [hwatch] at hhandling
  | absent => exact absurd hwatch htended.present
  | ended => exact absurd hwatch htended.unended

end Bridge

namespace Workplace

variable {τ ρ σ β : Type} {name : String} {place after : Workplace τ ρ σ β}
  {own : τ} {stop : ρ → σ → σ}

structure Orderly (name : String) (place : Workplace τ ρ σ β) : Prop where
  name_eq : place.reactor.name = name
  numbers : place.accepted.map Errand.number = List.range place.accepted.length
  order : place.accepted = place.ran ++ (place.running.toList ++
    (place.bridge.items ++ (place.dropped ++ place.discarded)))
  sent : place.sent.map Prod.fst = place.ran.map Errand.number
  closed : place.bridge.closed = place.phase.isOver
  running : place.running ≠ none → place.phase = .looping ∧
    place.bridge.watch = .handling
  tended : place.phase = .looping → place.bridge.IsTended
  unfinished : place.phase.isOver = false → place.dropped = [] ∧
    place.discarded = []
  finished : place.phase.isOver → place.bridge.items = []
  emptied : place.phase = .ended → place.discarded = []
  stopping : place.phase ≠ .looping → place.reactor.stopping

structure Staged (own : τ) (place : Workplace τ ρ σ β) : Prop where
  fits : ∀ thread, place.Fits own thread (place.stage thread)
  returned : ∀ errand, errand ∈ place.accepted ↔
    errand ∈ place.returned ∨ ∃ thread, place.stage thread = .due errand

/-- A call that waited has returned the value that its task sent, or the error
of a task that was dropped. -/
def Settles (place : Workplace τ ρ σ β) (errand : Errand τ ρ σ β) :
    Except Error β → Prop
  | .ok value => (errand.number, value) ∈ place.sent
  | .error error =>
      error = .dispatcherStopped place.reactor.name ∧
        errand.number ∈ place.dropped.map Errand.number

structure Informed [DecidableEq τ] (own : τ) (place : Workplace τ ρ σ β) :
    Prop where
  answers : ∀ errand result, (errand, result) ∈ place.answers →
    errand ∈ place.accepted ∧ errand.thread ≠ own ∧ place.Settles errand result
  refused : ∀ thread awaited error, (thread, awaited, error) ∈ place.refused →
    error = refusal place.reactor.name own thread awaited

def Attentive (place : Workplace τ ρ σ β) : Prop :=
  place.phase = .looping → place.bridge.items ≠ [] →
    (∃ thread errand, place.stage thread = .due errand) ∨ place.bridge.IsAlert

theorem create_orderly (name : String) (state : σ) :
    Orderly name (create name state : Workplace τ ρ σ β) where
  name_eq := rfl
  numbers := rfl
  order := rfl
  sent := rfl
  closed := rfl
  running hrunning := absurd rfl hrunning
  tended _ := ⟨nofun, nofun, nofun⟩
  unfinished _ := ⟨rfl, rfl⟩
  finished := nofun
  emptied := nofun
  stopping hphase := absurd rfl hphase

theorem create_staged (own : τ) (name : String) (state : σ) :
    Staged own (create name state : Workplace τ ρ σ β) where
  fits _ := trivial
  returned _ := by simp [create]

theorem create_informed [DecidableEq τ] (own : τ) (name : String) (state : σ) :
    Informed own (create name state : Workplace τ ρ σ β) where
  answers := nofun
  refused := nofun

theorem create_attentive (name : String) (state : σ) :
    Attentive (create name state : Workplace τ ρ σ β) :=
  fun _ hitems => absurd rfl hitems

theorem Orderly.accept (horderly : Orderly name place)
    (hopen : place.bridge.closed = false) (errand : Errand τ ρ σ β)
    (hnumber : errand.number = place.accepted.length) :
    Orderly name
      { place with
        bridge := { place.bridge with items := place.bridge.items ++ [errand] }
        accepted := place.accepted ++ [errand] } := by
  have hover : place.phase.isOver = false := horderly.closed ▸ hopen
  obtain ⟨hdropped, hdiscarded⟩ := horderly.unfinished hover
  have horder := horderly.order
  rw [hdropped, hdiscarded] at horder
  exact { horderly with
    numbers := by simp [horderly.numbers, hnumber, List.range_succ]
    order := by simp [horder, hdropped, hdiscarded]
    tended := fun hlooping => { horderly.tended hlooping with }
    finished := fun hfinished => by simp [hover] at hfinished }

theorem Orderly.withBridge {bridge : Bridge (Errand τ ρ σ β)}
    (horderly : Orderly name place)
    (hitems : bridge.items = place.bridge.items)
    (hclosed : bridge.closed = place.bridge.closed)
    (hwatch : place.running ≠ none → bridge.watch = .handling)
    (htended : place.phase = .looping → bridge.IsTended) :
    Orderly name { place with bridge } :=
  { horderly with
    order := by
      rw [hitems]
      exact horderly.order
    closed := hclosed.trans horderly.closed
    running := fun hrunning => ⟨(horderly.running hrunning).1, hwatch hrunning⟩
    tended := htended
    finished := fun hover => hitems.trans (horderly.finished hover) }

theorem Orderly.running_eq_none (horderly : Orderly name place)
    (hphase : place.phase ≠ .looping) : place.running = none := by
  by_contra hrunning
  exact hphase (horderly.running hrunning).1

theorem Orderly.advance {next : LoopPhase} (horderly : Orderly name place)
    (hrunning : place.running = none) (hstopping : place.reactor.stopping)
    (hnext : next ≠ .looping) (hover : next.isOver = place.phase.isOver)
    (hended : next = .ended → place.discarded = []) :
    Orderly name { place with phase := next } :=
  { horderly with
    closed := horderly.closed.trans hover.symm
    running := fun hsome => absurd hrunning hsome
    tended := fun hlooping => absurd hlooping hnext
    unfinished := fun hopen => horderly.unfinished (hover ▸ hopen)
    finished := fun hclosed => horderly.finished (hover ▸ hclosed)
    emptied := hended
    stopping := fun _ => hstopping }

theorem Fits.mono {thread : τ} {stage : CallStage τ ρ σ β}
    (hfits : place.Fits own thread stage)
    (hsub : place.accepted ⊆ after.accepted) :
    after.Fits own thread stage := by
  cases stage with
  | idle => trivial
  | checked awaited job => exact hfits
  | due errand => exact ⟨hsub hfits.1, hfits.2⟩
  | waiting errand => exact ⟨hsub hfits.1, hfits.2⟩

theorem Settles.mono {errand : Errand τ ρ σ β} {result : Except Error β}
    (hsettles : place.Settles errand result)
    (hname : after.reactor.name = place.reactor.name)
    (hsent : place.sent ⊆ after.sent)
    (hdropped : place.dropped ⊆ after.dropped) :
    after.Settles errand result := by
  cases result with
  | ok value => exact hsent hsettles
  | error error =>
      refine ⟨hname ▸ hsettles.1, ?_⟩
      exact List.map_subset Errand.number hdropped hsettles.2

theorem Staged.returned_iff (hstaged : Staged own place) {thread : τ}
    (hthread : ∀ errand, place.stage thread ≠ .due errand)
    (errand : Errand τ ρ σ β) :
    errand ∈ place.accepted ↔ errand ∈ place.returned ∨
      ∃ other ≠ thread, place.stage other = .due errand := by
  rw [hstaged.returned errand]
  refine or_congr_right ⟨?_, fun ⟨other, _, hdue⟩ => ⟨other, hdue⟩⟩
  rintro ⟨other, hdue⟩
  exact ⟨other, fun heq => hthread errand (heq ▸ hdue), hdue⟩

section Moves

variable [DecidableEq τ]

theorem Move.name_eq (hmove : Move own stop place after) :
    after.reactor.name = place.reactor.name := by
  cases hmove with
  | worked errand => exact errand.job.name_work (place.reactor, place.state)
  | _ => rfl

theorem Move.stopping (hmove : Move own stop place after)
    (hstopping : place.reactor.stopping) :
    after.reactor.stopping := by
  cases hmove with
  | worked errand =>
      exact errand.job.stopping_work (place.reactor, place.state) hstopping
  | stopped => rfl
  | _ => exact hstopping

theorem Orderly.move (horderly : Orderly name place)
    (hmove : Move own stop place after) :
    Orderly name after := by
  cases hmove with
  | none => exact horderly
  | refused | checked | received | abandoned => exact { horderly with }
  | pushed thread awaited job hchecked hopen hempty =>
      exact { horderly.accept hopen ⟨place.accepted.length, thread, awaited,
                job⟩ rfl with }
  | queued thread awaited job hchecked hopen hfilled =>
      exact { horderly.accept hopen ⟨place.accepted.length, thread, awaited,
                job⟩ rfl with }
  | signalled thread errand hdue =>
      have hwatch : place.running ≠ none → place.bridge.notify.watch =
          .handling := by
        intro hrunning
        have hhandling := (horderly.running hrunning).2
        unfold Bridge.notify
        simp [hhandling]
      have hsignalled :
          Orderly name { place with bridge := place.bridge.notify } :=
        horderly.withBridge (Bridge.notify_items _)
          (Bridge.notify_closed _) hwatch
          fun hlooping => (horderly.tended hlooping).notify
      exact { hsignalled with }
  | stopped => exact { horderly with stopping := fun _ => rfl }
  | left hlooping hrunning hstopping =>
      exact horderly.advance hrunning hstopping
        nofun (by rw [hlooping]; rfl) nofun
  | polled hlooping hrunning hwatch =>
      have hopen : place.bridge.closed = false :=
        by rw [horderly.closed, hlooping]; rfl
      have htended := (horderly.tended hlooping).poll hopen
      rw [if_neg htended.unended, ← hlooping]
      exact horderly.withBridge (Bridge.poll_items _) (Bridge.poll_closed _)
        (fun hsome => absurd hrunning hsome) fun _ => htended
  | took errand rest hlooping hrunning hwatch hitems =>
      have horder := horderly.order
      rw [hrunning, hitems] at horder
      exact { horderly with
        order := horder
        running := fun _ => ⟨hlooping, hwatch⟩
        tended := fun _ => { horderly.tended hlooping with }
        finished := fun hover => by simp [hlooping, LoopPhase.isOver] at hover }
  | rested hlooping hrunning hwatch hitems =>
      exact horderly.withBridge rfl rfl (fun hsome => absurd hrunning hsome)
        fun _ => ⟨nofun, nofun, nofun⟩
  | worked errand hlooping hrunning =>
      have horder := horderly.order
      rw [hrunning] at horder
      have hname := errand.job.name_work (place.reactor, place.state)
      exact { horderly with
        name_eq := hname.trans horderly.name_eq
        order := by simp [Workplace.work, horder]
        sent := by simp [Workplace.work, Errand.task, horderly.sent]
        running := fun hsome => absurd rfl hsome
        stopping := fun hphase => absurd hlooping hphase }
  | unloaded hleaving =>
      have hphase : place.phase ≠ .looping := by rw [hleaving]; nofun
      have hunloaded : Orderly name { place with phase := .unloaded } :=
        horderly.advance (horderly.running_eq_none hphase)
          (horderly.stopping hphase) nofun (by rw [hleaving]; rfl) nofun
      exact { hunloaded with }
  | shut hunloaded =>
      have hphase : place.phase ≠ .looping := by rw [hunloaded]; nofun
      have hrunning := horderly.running_eq_none hphase
      have hover : place.phase.isOver = false := by rw [hunloaded]; rfl
      obtain ⟨hdropped, hdiscarded⟩ := horderly.unfinished hover
      have horder := horderly.order
      have hopen : place.bridge.closed = false := horderly.closed.trans hover
      rw [hdropped, hdiscarded] at horder
      have hshut : place.bridge.shut =
          ({ place.bridge with items := [], closed := true },
          place.bridge.items) := by
        unfold Bridge.shut
        rw [hopen]
        rfl
      rw [hshut]
      exact { horderly with
        order := by simpa [hdropped] using horder
        closed := rfl
        running := fun hsome => absurd hrunning hsome
        tended := nofun
        unfinished := nofun
        finished := fun _ => rfl
        emptied := nofun
        stopping := fun _ => horderly.stopping hphase }
  | announced hshut =>
      have hphase : place.phase ≠ .looping := by rw [hshut]; nofun
      have hrunning := horderly.running_eq_none hphase
      have hadvanced : Orderly name { place with phase := .dropping } :=
        horderly.advance hrunning (horderly.stopping hphase)
          nofun (by rw [hshut]; rfl) nofun
      exact hadvanced.withBridge (Bridge.notify_items _)
        (Bridge.notify_closed _) (fun hsome => absurd hrunning hsome) nofun
  | droppedNext errand rest hdropping hdiscarded =>
      have horder := horderly.order
      rw [hdiscarded] at horder
      exact { horderly with
        order := by simpa using horder
        unfinished :=
          fun hover => by simp [hdropping, LoopPhase.isOver] at hover
        emptied := fun hended => by simp [hdropping] at hended }
  | ended hdropping hdiscarded =>
      have hphase : place.phase ≠ .looping := by rw [hdropping]; nofun
      exact horderly.advance (horderly.running_eq_none hphase)
        (horderly.stopping hphase) nofun
        (by rw [hdropping]; rfl) fun _ => hdiscarded

theorem Staged.enter (hstaged : Staged own place) {thread : τ}
    {stage : CallStage τ ρ σ β}
    (hstage : after.stage = Function.update place.stage thread stage)
    (hfits : after.Fits own thread stage)
    (hsub : place.accepted ⊆ after.accepted)
    (hreturned : ∀ errand, errand ∈ after.accepted ↔ errand ∈ after.returned ∨
      stage = .due errand ∨ ∃ other ≠ thread, place.stage other = .due errand) :
    Staged own after := by
  constructor
  · rw [hstage, Function.forall_update_iff place.stage fun other stage =>
      after.Fits own other stage]
    exact ⟨hfits, fun other _ => (hstaged.fits other).mono hsub⟩
  · intro errand
    rw [hstage, Function.exists_update_iff place.stage fun _ stage =>
      stage = .due errand]
    exact hreturned errand

theorem Staged.settle (hstaged : Staged own place) {thread : τ}
    (hthread : ∀ errand, place.stage thread ≠ .due errand)
    (stage : CallStage τ ρ σ β) (hstage : ∀ errand, stage ≠ .due errand)
    (hfits : place.Fits own thread stage) :
    Staged own (place.enter thread stage) := by
  refine hstaged.enter rfl hfits (List.Subset.refl _) fun errand => ?_
  have hreturned := hstaged.returned_iff hthread errand
  simpa only [enter_accepted, enter_returned, hstage errand, false_or]
    using hreturned

theorem Staged.grant (hstaged : Staged own place) {errand : Errand τ ρ σ β}
    (haccepted : errand ∈ after.accepted)
    (hother : errand.awaited = true → errand.thread ≠ own)
    (hstage : after.stage = place.stage)
    (hsub : place.accepted ⊆ after.accepted)
    (hreturned : ∀ other, other ∈ after.accepted ↔
      (other ∈ after.returned ∨ other = errand) ∨
      ∃ thread ≠ errand.thread, place.stage thread = .due other) :
    Staged own (after.grant errand) := by
  refine hstaged.enter (congrArg (Function.update · _ _) hstage) ?_ hsub
    fun other => ?_
  · cases hawaited : errand.awaited with
    | true => exact ⟨haccepted, rfl, hawaited, hother hawaited⟩
    | false => trivial
  · have hdue : ¬(if errand.awaited then CallStage.waiting errand else .idle) =
        .due other := by
      split <;> nofun
    simpa only [Workplace.grant, enter_accepted, List.mem_append,
      List.mem_singleton, hdue, false_or] using hreturned other

theorem Staged.move (hstaged : Staged own place)
    (hmove : Move own stop place after) :
    Staged own after := by
  cases hmove with
  | refused thread awaited error hstage herror =>
      have hthread : ∀ errand, place.stage thread ≠ .due errand := by
        rcases hstage with hidle | ⟨job, hchecked⟩
        · simp [hidle]
        · simp [hchecked]
      exact { hstaged.settle hthread .idle (by simp) trivial with }
  | checked thread awaited job hidle hother =>
      exact hstaged.settle (by simp [hidle]) (.checked awaited job)
        (by simp) hother
  | pushed thread awaited job hchecked hopen hempty =>
      have hfit := hstaged.fits thread
      rw [hchecked] at hfit
      have hthread : ∀ errand, place.stage thread ≠ .due errand :=
        by simp [hchecked]
      refine hstaged.enter rfl ⟨by simp, rfl, hfit⟩ (by simp) fun errand => ?_
      have hreturned := hstaged.returned_iff hthread errand
      simp only [enter_accepted, enter_returned, List.mem_append,
        List.mem_singleton, hreturned,
        CallStage.due.injEq, eq_comm (b := errand), or_assoc]
      rw [or_comm (a := errand = _)]
  | queued thread awaited job hchecked hopen hfilled =>
      have hfit := hstaged.fits thread
      rw [hchecked] at hfit
      have hthread : ∀ errand, place.stage thread ≠ .due errand :=
        by simp [hchecked]
      refine hstaged.grant (by simp) hfit rfl (by simp) fun errand => ?_
      have hreturned := hstaged.returned_iff hthread errand
      simp [hreturned, or_right_comm]
  | signalled thread errand hdue =>
      have hfit := hstaged.fits thread
      rw [hdue] at hfit
      obtain ⟨haccepted, rfl, hother⟩ := hfit
      refine hstaged.grant haccepted hother rfl (List.Subset.refl _)
        fun other => ?_
      refine (hstaged.returned other).trans ⟨?_, ?_⟩
      · rintro (hreturned | ⟨thread, hother⟩)
        · exact .inl (.inl hreturned)
        · by_cases hthread : thread = errand.thread
          · rw [hthread, hdue] at hother
            exact .inl (.inr (CallStage.due.inj hother).symm)
          · exact .inr ⟨thread, hthread, hother⟩
      · rintro ((hreturned | rfl) | ⟨thread, -, hother⟩)
        · exact .inl hreturned
        · exact .inr ⟨_, hdue⟩
        · exact .inr ⟨thread, hother⟩
  | received thread errand value hwaiting hsent =>
      have hfit := hstaged.fits thread
      rw [hwaiting] at hfit
      obtain ⟨-, rfl, -⟩ := hfit
      exact { hstaged.settle (by simp [hwaiting]) .idle (by simp) trivial with }
  | abandoned thread errand hwaiting hdropped =>
      have hfit := hstaged.fits thread
      rw [hwaiting] at hfit
      obtain ⟨-, rfl, -⟩ := hfit
      exact { hstaged.settle (by simp [hwaiting]) .idle (by simp) trivial with }
  | _ => exact { hstaged with }

theorem Move.accepted_subset (hmove : Move own stop place after) :
    place.accepted ⊆ after.accepted := by
  cases hmove with
  | pushed | queued => exact List.subset_append_left ..
  | _ => exact List.Subset.refl _

theorem Move.sent_subset (hmove : Move own stop place after) :
    place.sent ⊆ after.sent := by
  cases hmove with
  | worked errand => exact List.subset_append_left ..
  | _ => exact List.Subset.refl _

theorem Move.dropped_subset (hmove : Move own stop place after) :
    place.dropped ⊆ after.dropped := by
  cases hmove with
  | droppedNext errand => exact List.subset_append_left ..
  | _ => exact List.Subset.refl _

theorem Move.answers_cases (hmove : Move own stop place after)
    (hstaged : Staged own place) {errand : Errand τ ρ σ β}
    {result : Except Error β} (hanswer : (errand, result) ∈ after.answers) :
    (errand, result) ∈ place.answers ∨
      errand ∈ place.accepted ∧ errand.thread ≠ own ∧
      place.Settles errand result := by
  have hfits {thread : τ} {errand : Errand τ ρ σ β}
      (hwaiting : place.stage thread = .waiting errand) :
      errand ∈ place.accepted ∧ errand.thread ≠ own := by
    have hfit := hstaged.fits thread
    rw [hwaiting] at hfit
    obtain ⟨haccepted, rfl, -, hother⟩ := hfit
    exact ⟨haccepted, hother⟩
  cases hmove with
  | received thread errand value hwaiting hsent =>
      rcases List.mem_append.mp hanswer with hold | hnew
      · exact .inl hold
      · cases List.mem_singleton.mp hnew
        exact .inr ⟨(hfits hwaiting).1, (hfits hwaiting).2, hsent⟩
  | abandoned thread errand hwaiting hdropped =>
      rcases List.mem_append.mp hanswer with hold | hnew
      · exact .inl hold
      · cases List.mem_singleton.mp hnew
        exact .inr ⟨(hfits hwaiting).1, (hfits hwaiting).2, rfl, hdropped⟩
  | _ => exact .inl hanswer

theorem Informed.move (hinformed : Informed own place)
    (hstaged : Staged own place) (hmove : Move own stop place after) :
    Informed own after := by
  have hname := hmove.name_eq
  constructor
  · intro errand result hanswer
    have hanswered : errand ∈ place.accepted ∧ errand.thread ≠ own ∧
        place.Settles errand result := by
      rcases hmove.answers_cases hstaged hanswer with hold | hnew
      · exact hinformed.answers errand result hold
      · exact hnew
    obtain ⟨haccepted, hother, hsettles⟩ := hanswered
    exact ⟨hmove.accepted_subset haccepted, hother,
      hsettles.mono hname hmove.sent_subset hmove.dropped_subset⟩
  · rw [hname]
    cases hmove with
    | refused thread awaited error hstage herror =>
        intro other otherAwaited otherError hrefused
        rcases List.mem_append.mp hrefused with hold | hnew
        · exact hinformed.refused other otherAwaited otherError hold
        · cases List.mem_singleton.mp hnew
          exact herror
    | _ => exact hinformed.refused

theorem exists_due_enter {thread : τ}
    (hthread : ∀ errand, place.stage thread ≠ .due errand)
    (stage : CallStage τ ρ σ β)
    (hdue : ∃ other errand, place.stage other = .due errand) :
    ∃ other errand, (place.enter thread stage).stage other = .due errand := by
  obtain ⟨other, errand, hother⟩ := hdue
  have hne : other ≠ thread := fun heq => hthread errand (heq ▸ hother)
  exact ⟨other, errand, (Function.update_of_ne hne _ _).trans hother⟩

theorem Attentive.enter (hattentive : Attentive place) {thread : τ}
    (hthread : ∀ errand, place.stage thread ≠ .due errand)
    (stage : CallStage τ ρ σ β) :
    Attentive (place.enter thread stage) := by
  intro hlooping hitems
  exact (hattentive hlooping hitems).imp_left (exists_due_enter hthread stage)

theorem Attentive.answer (hattentive : Attentive place)
    (hstaged : Staged own place) {thread : τ} {errand : Errand τ ρ σ β}
    (hwaiting : place.stage thread = .waiting errand)
    (result : Except Error β) : Attentive (place.answer errand result) := by
  have hfit := hstaged.fits thread
  rw [hwaiting] at hfit
  obtain ⟨-, rfl, -⟩ := hfit
  exact hattentive.enter (by simp [hwaiting]) .idle

theorem Attentive.move (hattentive : Attentive place)
    (horderly : Orderly name place) (hstaged : Staged own place)
    (hmove : Move own stop place after) : Attentive after := by
  cases hmove with
  | none | stopped | worked => exact hattentive
  | refused thread awaited error hstage herror =>
      refine hattentive.enter ?_ .idle
      rcases hstage with hidle | ⟨job, hchecked⟩
      · simp [hidle]
      · simp [hchecked]
  | checked thread awaited job hidle hother =>
      exact hattentive.enter (by simp [hidle]) (.checked awaited job)
  | pushed thread awaited job hchecked hopen hempty =>
      exact fun _ _ => .inl ⟨thread, _, Function.update_self ..⟩
  | queued thread awaited job hchecked hopen hfilled =>
      -- Whoever filled the empty queue has given the signal or still has to.
      intro hlooping hitems
      exact (hattentive hlooping hfilled).imp_left
        (exists_due_enter (by simp [hchecked]) _)
  | signalled thread errand hdue => exact fun _ _ => .inr Bridge.notify_isAlert
  | received thread errand value hwaiting hsent =>
      exact hattentive.answer hstaged hwaiting _
  | abandoned thread errand hwaiting hdropped =>
      exact hattentive.answer hstaged hwaiting _
  | left | unloaded | shut | announced | ended => nofun
  | polled hlooping hrunning hwatch =>
      intro _ hitems
      have hopen : place.bridge.closed = false :=
        by rw [horderly.closed, hlooping]; rfl
      exact (hattentive hlooping (by simpa using hitems)).imp_right
        (Bridge.poll_isAlert hopen)
  | took errand rest hlooping hrunning hwatch hitems =>
      exact fun _ _ => .inr (.inr (.inr hwatch))
  | rested hlooping hrunning hwatch hitems =>
      exact fun _ hfilled => absurd hitems hfilled
  | droppedNext errand rest hdropping hdiscarded =>
      intro hlooping
      simp [hdropping] at hlooping

theorem Move.over (hmove : Move own stop place after)
    (hphase : place.phase ≠ .looping) :
    after.phase ≠ .looping ∧ after.ran = place.ran ∧
      after.sent = place.sent := by
  cases hmove with
  | left hlooping | polled hlooping | took _ _ hlooping | rested hlooping
  | worked _ hlooping =>
      exact absurd hlooping hphase
  | unloaded | shut | announced | ended => exact ⟨nofun, rfl, rfl⟩
  | _ => exact ⟨hphase, rfl, rfl⟩

end Moves

section Runs

variable [DecidableEq τ]

structure Sound (name : String) (own : τ) (place : Workplace τ ρ σ β) :
    Prop where
  orderly : Orderly name place
  staged : Staged own place
  informed : Informed own place
  attentive : Attentive place

theorem create_sound (own : τ) (name : String) (state : σ) :
    Sound name own (create name state : Workplace τ ρ σ β) :=
  ⟨create_orderly name state, create_staged own name state,
    create_informed own name state, create_attentive name state⟩

theorem Sound.move (hsound : Sound name own place)
    (hmove : Move own stop place after) :
    Sound name own after where
  orderly := hsound.orderly.move hmove
  staged := hsound.staged.move hmove
  informed := hsound.informed.move hsound.staged hmove
  attentive := hsound.attentive.move hsound.orderly hsound.staged hmove

theorem Sound.act (hsound : Sound name own place) (action : Action τ ρ σ β) :
    Sound name own (place.act own stop action) :=
  hsound.move (act_move hsound.staged.fits action)

theorem Sound.acts (hsound : Sound name own place)
    (actions : List (Action τ ρ σ β)) :
    Sound name own (actions.foldl (Workplace.act own stop) place) := by
  induction actions generalizing place with
  | nil => exact hsound
  | cons action actions ih => exact ih (hsound.act action)

theorem run_sound (name : String) (state : σ) (own : τ) (stop : ρ → σ → σ)
    (actions : List (Action τ ρ σ β)) :
    Sound name own (run name state own stop actions) :=
  (create_sound own name state).acts actions

theorem Sound.acts_over (hsound : Sound name own place)
    (hphase : place.phase ≠ .looping) (actions : List (Action τ ρ σ β)) :
    (actions.foldl (Workplace.act own stop) place).ran = place.ran ∧
      (actions.foldl (Workplace.act own stop) place).sent = place.sent := by
  induction actions generalizing place with
  | nil => exact ⟨rfl, rfl⟩
  | cons action actions ih =>
      have hmove : Move own stop place (place.act own stop action) :=
        act_move hsound.staged.fits action
      obtain ⟨hafter, hran, hsent⟩ := hmove.over hphase
      obtain ⟨hallRan, hallSent⟩ := ih (hsound.move hmove) hafter
      exact ⟨hallRan.trans hran, hallSent.trans hsent⟩

theorem Sound.acts_stopping (hsound : Sound name own place)
    (actions : List (Action τ ρ σ β))
    (hstop : place.reactor.stopping ∨ Action.stop ∈ actions) :
    (actions.foldl (Workplace.act own stop) place).reactor.stopping := by
  induction actions generalizing place with
  | nil => exact hstop.resolve_right List.not_mem_nil
  | cons action actions ih =>
      have hmove : Move own stop place (place.act own stop action) :=
        act_move hsound.staged.fits action
      refine ih (hsound.move hmove) ?_
      rcases hstop with hstopping | hmem
      · exact .inl (hmove.stopping hstopping)
      · rcases List.mem_cons.mp hmem with rfl | hlater
        · exact .inl rfl
        · exact .inr hlater

end Runs

section Numbers

variable (horderly : Orderly name place)

include horderly

theorem Orderly.nodup : (place.accepted.map Errand.number).Nodup := by
  rw [horderly.numbers]
  exact List.nodup_range

theorem Orderly.sent_unique {number : Nat} {value other : β}
    (hvalue : (number, value) ∈ place.sent)
    (hother : (number, other) ∈ place.sent) :
    value = other := by
  have hnodup := horderly.nodup
  rw [horderly.order, List.map_append, ← horderly.sent] at hnodup
  have hinj :=
    List.inj_on_of_nodup_map (List.Nodup.of_append_left hnodup)
      hvalue hother rfl
  exact congrArg Prod.snd hinj

theorem Orderly.not_sent {number : Nat}
    (hdropped : number ∈ place.dropped.map Errand.number) (value : β) :
    (number, value) ∉ place.sent := by
  intro hsent
  have hnodup := horderly.nodup
  rw [horderly.order, List.map_append, ← horderly.sent] at hnodup
  refine List.disjoint_of_nodup_append hnodup (List.mem_map_of_mem hsent) ?_
  simp only [List.map_append, List.mem_append]
  exact .inr (.inr (.inl hdropped))

theorem Orderly.settles_iff {errand : Errand τ ρ σ β} {result : Except Error β}
    (hsettles : place.Settles errand result) (value : β) :
    result = .ok value ↔ (errand.number, value) ∈ place.sent := by
  cases result with
  | ok other =>
      constructor
      · rintro ⟨⟩
        exact hsettles
      · intro hsent
        rw [horderly.sent_unique hsettles hsent]
  | error error =>
      exact ⟨nofun, fun hsent =>
        absurd hsent (horderly.not_sent hsettles.2 value)⟩

theorem Orderly.accepted_of_closed (hclosed : place.bridge.closed) :
    place.accepted = place.ran ++ (place.dropped ++ place.discarded) := by
  have hover : place.phase.isOver := horderly.closed ▸ hclosed
  have hphase : place.phase ≠ .looping := by
    intro hlooping
    simp [hlooping, LoopPhase.isOver] at hover
  have horder := horderly.order
  rw [horderly.running_eq_none hphase, horderly.finished hover] at horder
  exact horder

theorem Orderly.accepted_of_ended (hended : place.phase = .ended) :
    place.accepted = place.ran ++ place.dropped := by
  have hclosed : place.bridge.closed := by rw [horderly.closed, hended]; rfl
  have haccepted := horderly.accepted_of_closed hclosed
  rwa [horderly.emptied hended, List.append_nil] at haccepted

end Numbers

section Settling

theorem loop_stage (place : Workplace τ ρ σ β) :
    (place.loop stop).stage = place.stage := by
  rw [loop]
  split
  next =>
    split
    next => rfl
    next =>
      split
      next =>
        rw [take]
        split <;> rfl
      next =>
        rw [wake]
        split <;> rfl
  next => rfl
  next => rfl
  next => rfl
  next => split <;> rfl
  next => rfl

variable [DecidableEq τ]

theorem Orderly.loop (horderly : Orderly name place) (own : τ) :
    Orderly name (place.loop stop) := by
  have hmove : Move own stop place (place.loop stop) := loop_move place
  exact horderly.move hmove

/-- Steps of the loop and of calls that have begun, without another call or a
request to stop, lead to where the loop has nothing left, and the threads that
wait still do. -/
def CanSettle (own : τ) (stop : ρ → σ → σ) (place : Workplace τ ρ σ β) : Prop :=
  ∃ actions : List (Action τ ρ σ β),
    (∀ action ∈ actions, action = .loop ∨ ∃ thread, action = .proceed thread) ∧
      let later := actions.foldl (act own stop) place
      (later.running = none ∧ later.bridge.items = [] ∧ later.discarded = []) ∧
        ∀ thread errand, place.stage thread = .waiting errand →
          later.stage thread = .waiting errand

theorem CanSettle.of_settled (hrunning : place.running = none)
    (hitems : place.bridge.items = []) (hdiscarded : place.discarded = []) :
    CanSettle own stop place :=
  ⟨[], nofun, ⟨hrunning, hitems, hdiscarded⟩, fun _ _ hwaiting => hwaiting⟩

theorem CanSettle.of_loop (hcan : CanSettle own stop (place.loop stop)) :
    CanSettle own stop place := by
  obtain ⟨actions, hown, hsettled, hwaits⟩ := hcan
  refine ⟨.loop :: actions, ?_, hsettled, fun thread errand hwaiting => ?_⟩
  · rintro action (_ | ⟨_, hmem⟩)
    · exact .inl rfl
    · exact hown action hmem
  · exact hwaits thread errand (by rwa [loop_stage])

theorem CanSettle.of_proceed {thread : τ} {errand : Errand τ ρ σ β}
    (hstaged : Staged own place) (hdue : place.stage thread = .due errand)
    (hcan : CanSettle own stop (place.proceed thread)) :
    CanSettle own stop place := by
  obtain ⟨actions, hown, hsettled, hwaits⟩ := hcan
  refine ⟨.proceed thread :: actions, ?_, hsettled,
    fun other waited hwaiting => ?_⟩
  · rintro action (_ | ⟨_, hmem⟩)
    · exact .inr ⟨thread, rfl⟩
    · exact hown action hmem
  · apply hwaits
    have hfit := hstaged.fits thread
    rw [hdue] at hfit
    obtain ⟨-, rfl, -⟩ := hfit
    have hne : other ≠ errand.thread := by
      rintro rfl
      rw [hdue] at hwaiting
      cases hwaiting
    simpa [proceed, hdue, grant, enter, Function.update_of_ne hne]
      using hwaiting

theorem settle_dropping (horderly : Orderly name place)
    (hphase : place.phase = .dropping) :
    CanSettle own stop place := by
  have hnot : place.phase ≠ .looping := by rw [hphase]; nofun
  induction hdiscarded : place.discarded generalizing place with
  | nil =>
      exact .of_settled (horderly.running_eq_none hnot)
        (horderly.finished (by rw [hphase]; rfl)) hdiscarded
  | cons errand rest ih =>
      have hdropped : Orderly name (place.loop stop) := horderly.loop own
      apply CanSettle.of_loop
      rw [loop_of_discarded hphase hdiscarded] at hdropped ⊢
      exact ih hdropped hphase hnot rfl

theorem settle_shut (horderly : Orderly name place)
    (hphase : place.phase = .shut) :
    CanSettle own stop place := by
  refine .of_loop (settle_dropping (horderly.loop own) ?_)
  rw [loop_of_shut hphase]

theorem settle_unloaded (horderly : Orderly name place)
    (hphase : place.phase = .unloaded) :
    CanSettle own stop place := by
  refine .of_loop (settle_shut (horderly.loop own) ?_)
  rw [loop_of_unloaded hphase]

theorem settle_leaving (horderly : Orderly name place)
    (hphase : place.phase = .leaving) :
    CanSettle own stop place := by
  refine .of_loop (settle_unloaded (horderly.loop own) ?_)
  rw [loop_of_leaving hphase]

theorem settle_handling (horderly : Orderly name place)
    (hphase : place.phase = .looping) (hrunning : place.running = none)
    (hwatch : place.bridge.watch = .handling) :
    CanSettle own stop place := by
  induction hitems : place.bridge.items generalizing place with
  | nil =>
      have hover : place.phase.isOver = false := by rw [hphase]; rfl
      exact .of_settled hrunning hitems (horderly.unfinished hover).2
  | cons errand rest ih =>
      have hworked : Orderly name ((place.loop stop).loop stop) :=
        (horderly.loop own).loop own
      -- One step takes a task out of the queue, and the next one runs it.
      apply CanSettle.of_loop
      apply CanSettle.of_loop
      rw [loop_loop hphase hrunning hwatch hitems] at hworked ⊢
      exact ih hworked hphase rfl hwatch rfl

theorem settle_alert (horderly : Orderly name place)
    (hphase : place.phase = .looping) (hrunning : place.running = none)
    (hwatch : place.bridge.watch ≠ .handling)
    (hstopping : place.reactor.stopping = false)
    (halert : place.bridge.IsAlert) :
    CanSettle own stop place := by
  have hopen : place.bridge.closed = false :=
    by rw [horderly.closed, hphase]; rfl
  have hhandling := (horderly.tended hphase).poll_handling hopen halert
  have hpolled : Orderly name (place.loop stop) := horderly.loop own
  apply CanSettle.of_loop
  rw [loop_of_waking hphase hrunning hwatch hstopping] at hpolled ⊢
  exact settle_handling hpolled (if_neg (by simp [hhandling]))
    hrunning hhandling

theorem settle_filled (hsound : Sound name own place)
    (hphase : place.phase = .looping) (hrunning : place.running = none)
    (hwatch : place.bridge.watch ≠ .handling)
    (hfilled : place.bridge.items ≠ []) : CanSettle own stop place := by
  have horderly := hsound.orderly
  cases hstopping : place.reactor.stopping with
  | true =>
      refine .of_loop (settle_leaving (horderly.loop own) ?_)
      rw [loop_of_stopping hphase hrunning hwatch hstopping]
  | false =>
      rcases hsound.attentive hphase hfilled with
        ⟨thread, errand, hdue⟩ | halert
      -- The thread whose signal is due gives it first.
      · have hacted : Sound name own (place.act own stop (.proceed thread)) :=
          hsound.act (.proceed thread)
        have hsignalled : Orderly name (place.proceed thread) := hacted.orderly
        refine .of_proceed hsound.staged hdue ?_
        simp only [proceed, hdue] at hsignalled ⊢
        exact settle_alert hsignalled hphase hrunning
          (Bridge.notify_ne_handling hwatch) hstopping Bridge.notify_isAlert
      · exact settle_alert horderly hphase hrunning hwatch hstopping halert

theorem Sound.canSettle (hsound : Sound name own place) :
    CanSettle own stop place := by
  have horderly := hsound.orderly
  cases hphase : place.phase with
  | looping =>
      have hover : place.phase.isOver = false := by rw [hphase]; rfl
      cases hrunning : place.running with
      | some errand =>
          have hhandling := (horderly.running (by simp [hrunning])).2
          have hworked : Orderly name (place.loop stop) := horderly.loop own
          apply CanSettle.of_loop
          rw [loop_of_running hphase hrunning] at hworked ⊢
          exact settle_handling hworked hphase rfl hhandling
      | none =>
          by_cases hwatch : place.bridge.watch = .handling
          · exact settle_handling horderly hphase hrunning hwatch
          · by_cases hitems : place.bridge.items = []
            · exact .of_settled hrunning hitems (horderly.unfinished hover).2
            · exact settle_filled hsound hphase hrunning hwatch hitems
  | leaving => exact settle_leaving horderly hphase
  | unloaded => exact settle_unloaded horderly hphase
  | shut => exact settle_shut horderly hphase
  | dropping => exact settle_dropping horderly hphase
  | ended =>
      exact .of_settled (horderly.running_eq_none (by rw [hphase]; nofun))
        (horderly.finished (by rw [hphase]; rfl)) (horderly.emptied hphase)

theorem Sound.proceed_eq (hsound : Sound name own place) {thread : τ}
    {errand : Errand τ ρ σ β}
    (hwaiting : place.stage thread = .waiting errand)
    (hdone : errand ∈ place.ran ∨ errand ∈ place.dropped) :
    ∃ result, place.proceed thread = place.answer errand result := by
  simp only [proceed, hwaiting, receive]
  cases hlookup : place.sent.lookup errand.number with
  | some value => exact ⟨.ok value, rfl⟩
  | none =>
      rcases hdone with hran | hdropped
      · have hnumber : errand.number ∈ place.sent.map Prod.fst := by
          rw [hsound.orderly.sent]
          exact List.mem_map_of_mem hran
        obtain ⟨sent, hsent, hfst⟩ := List.mem_map.mp hnumber
        have hne := List.lookup_eq_none_iff.mp hlookup sent hsent
        simp [hfst] at hne
      · have hany : place.dropped.any (·.number = errand.number) := by
          rw [List.any_eq_true]
          exact ⟨errand, hdropped, by simp⟩
        exact ⟨_, if_pos hany⟩

/-- A call that waits can come to its end without a further call or a request to
stop. -/
theorem Sound.can_return (hsound : Sound name own place) {thread : τ}
    {errand : Errand τ ρ σ β}
    (hwaiting : place.stage thread = .waiting errand) :
    ∃ actions : List (Action τ ρ σ β),
      (∀ action ∈ actions, action = .loop ∨ ∃ other, action = .proceed other) ∧
        ∃ result, (errand, result) ∈
          (actions.foldl (Workplace.act own stop) place).answers := by
  have hcan : CanSettle own stop place := hsound.canSettle
  obtain ⟨actions, hown, ⟨hrunning, hitems, hdiscarded⟩, hwaits⟩ := hcan
  have hlater : Sound name own (actions.foldl (Workplace.act own stop) place) :=
    hsound.acts actions
  have hstill := hwaits thread errand hwaiting
  have hdone : errand ∈ (actions.foldl (Workplace.act own stop) place).ran ∨
      errand ∈ (actions.foldl (Workplace.act own stop) place).dropped := by
    have hfit := hlater.staged.fits thread
    rw [hstill] at hfit
    have haccepted := hfit.1
    -- What was accepted is nowhere else any more.
    rw [hlater.orderly.order, hrunning, hitems, hdiscarded] at haccepted
    simpa using haccepted
  obtain ⟨result, hproceed⟩ := hlater.proceed_eq hstill hdone
  refine ⟨actions ++ [.proceed thread], ?_, result, ?_⟩
  · intro action haction
    rcases List.mem_append.mp haction with hold | hnew
    · exact hown action hold
    · exact .inr ⟨thread, List.mem_singleton.mp hnew⟩
  · rw [List.foldl_append]
    have hanswer : (errand, result) ∈
        ((actions.foldl (Workplace.act own stop) place).proceed
          thread).answers := by
      rw [hproceed]
      exact List.mem_append_right _ (List.mem_singleton_self _)
    exact hanswer

theorem begin_of_stopping (hstopping : place.reactor.stopping) (thread : τ)
    (awaited : Bool) (job : Job ρ σ β) :
    place.begin own thread awaited job =
      place.refuse thread awaited
        (refusal place.reactor.name own thread awaited) := by
  rw [begin, refusal, if_pos hstopping]
  split <;> rfl

/-- Whatever threads and the loop do in whatever order: the errands that have
run are a first part of those accepted, in their order, and each has sent one
value. Nothing runs once the loop has seen that it has to end; when the queue
has ended, what has not run is dropped. A call by another thread than the
reactor's returns the value of its task if that has run and the error if it was
dropped, and it always can return. A call that begins after a request to stop is
refused. -/
theorem errands_run_in_order_or_are_dropped (name : String) (state : σ)
    (own : τ) (stop : ρ → σ → σ) (actions : List (Action τ ρ σ β)) :
    let place := run name state own stop actions
    (place.accepted.map Errand.number = List.range place.accepted.length ∧
      place.accepted = place.ran ++ (place.running.toList ++
        (place.bridge.items ++ (place.dropped ++ place.discarded))) ∧
      place.sent.map Prod.fst = place.ran.map Errand.number ∧
      ∀ errand, errand ∈ place.accepted ↔
        errand ∈ place.returned ∨ ∃ thread, place.stage thread = .due errand) ∧
    (place.phase ≠ .looping → place.running = none ∧ ∀ later,
      (run name state own stop (actions ++ later)).ran = place.ran ∧
        (run name state own stop (actions ++ later)).sent = place.sent) ∧
    (place.bridge.closed →
      place.accepted = place.ran ++ (place.dropped ++ place.discarded)) ∧
    (place.phase = .ended → place.accepted = place.ran ++ place.dropped) ∧
    (∀ errand result, (errand, result) ∈ place.answers →
      errand ∈ place.accepted ∧ errand.thread ≠ own ∧
        (∀ value, result = .ok value ↔ (errand.number, value) ∈ place.sent) ∧
        ∀ error, result = .error error → error = .dispatcherStopped name) ∧
    (∀ thread errand, place.stage thread = .waiting errand →
      (errand ∈ place.ran ∨ errand ∈ place.dropped →
        ∃ result, place.act own stop (.proceed thread) =
        place.answer errand result) ∧
      ∃ later, (∀ action ∈ later, action = .loop ∨
        ∃ other, action = .proceed other) ∧
        ∃ result, (errand, result) ∈
        (run name state own stop (actions ++ later)).answers) ∧
    (∀ thread awaited error, (thread, awaited, error) ∈ place.refused →
      error = refusal name own thread awaited) ∧
    (.stop ∈ actions → place.reactor.stopping) ∧
    (place.reactor.stopping → ∀ thread awaited job, place.stage thread = .idle →
      place.act own stop (.begin thread awaited job) =
        place.refuse thread awaited (refusal name own thread awaited)) := by
  intro place
  have hsound : Sound name own place := run_sound name state own stop actions
  have horderly := hsound.orderly
  refine ⟨⟨horderly.numbers, horderly.order, horderly.sent,
    hsound.staged.returned⟩, ?_,
    horderly.accepted_of_closed, horderly.accepted_of_ended, ?_, ?_, ?_, ?_, ?_⟩
  · intro hphase
    refine ⟨horderly.running_eq_none hphase, fun later => ?_⟩
    simp only [run, List.foldl_append]
    exact hsound.acts_over hphase later
  · intro errand result hanswer
    obtain ⟨haccepted, hother, hsettles⟩ :=
      hsound.informed.answers errand result hanswer
    refine ⟨haccepted, hother, horderly.settles_iff hsettles, ?_⟩
    rintro error rfl
    exact horderly.name_eq ▸ hsettles.1
  · intro thread errand hwaiting
    refine ⟨hsound.proceed_eq hwaiting, ?_⟩
    simp only [run, List.foldl_append]
    exact hsound.can_return hwaiting
  · intro thread awaited error hrefused
    exact horderly.name_eq ▸ hsound.informed.refused thread awaited
      error hrefused
  · intro hstop
    exact (create_sound own name state).acts_stopping actions (.inr hstop)
  · intro hstopping thread awaited job hidle
    rw [← horderly.name_eq]
    simp only [act, hidle]
    exact begin_of_stopping hstopping thread awaited job

/-- A call that comes just before a request to stop is accepted, and its task is
dropped. -/
example :
    let job : Job Unit Unit Nat :=
      ⟨fun place => (place, 7), fun _ hstopping => hstopping, fun _ => rfl⟩
    let place := run "main" () 0 (fun _ state => state)
      [ .begin 1 true job, .proceed 1, .stop, .proceed 1, .loop, .loop, .loop,
      .loop, .loop
      , .proceed 1 ]
    (place.returned.map Errand.thread, place.sent) = ([1], []) ∧
      place.answers.map Prod.snd = [.error (.dispatcherStopped "main")] := by
  exact ⟨rfl, rfl⟩

end Settling

end Workplace

end DnsForwarder
