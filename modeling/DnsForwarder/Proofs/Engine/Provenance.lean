import DnsForwarder.Proofs.Engine.Caching
import DnsForwarder.Proofs.Engine.Delivery
import DnsForwarder.Proofs.Engine.Life
import DnsForwarder.Proofs.Message.Matching

/-! Where answers come from. Whatever an engine says of the data of a question,
from its cache or to those who wait, is what one response says that came for the
question since the engine started, and that response belongs to the query. -/

namespace DnsForwarder

namespace Response

def answerTo (response : Response) (question : Question)
    (negativeTtl : UInt32) : Answer :=
  let status := if response.rcode = Message.Rcode.nxDomain then .noDomain
    else response.dataStatus question
  .ofRecords status response.rcode question response.records negativeTtl

variable {response : Response} {question : Question} {negativeTtl : UInt32}
  {answer : Answer}

theorem verdict_settled
    (hverdict : response.verdict question negativeTtl = .settled answer) :
    (response.rcode = Message.Rcode.noError ∨
      response.rcode = Message.Rcode.nxDomain) ∧
      answer = response.answerTo question negativeTtl := by
  rw [verdict] at hverdict
  split at hverdict
  next hsuccess =>
    cases hverdict
    refine ⟨.inl hsuccess, ?_⟩
    rw [answerTo, if_neg (by rw [hsuccess]; decide)]
  next =>
    split at hverdict
    next hmissing =>
      cases hverdict
      refine ⟨.inr hmissing, ?_⟩
      rw [answerTo, if_pos hmissing]
    next => split at hverdict <;> cases hverdict

end Response

/-- Only a response to the query settles a question, and only a complete one
over UDP. -/
theorem judge_settled {question : Question} {messageId : UInt16}
    {protocol : Protocol} {negativeTtl : UInt32}
    {result : Except Error Octets} {answer : Answer}
    (hjudge : judge question messageId protocol negativeTtl result =
      .settled answer) :
    ∃ bytes response, result = .ok bytes ∧ Response.parse bytes = .ok response ∧
      response.answers messageId question ∧
      (response.truncated → protocol = .tcp) ∧
      response.verdict question negativeTtl = .settled answer := by
  unfold judge at hjudge
  split at hjudge
  next => cases hjudge
  next bytes =>
    split at hjudge
    next => cases hjudge
    next response hparse =>
      split at hjudge
      next hanswers =>
        split at hjudge
        next => cases hjudge
        next hcomplete =>
          refine ⟨bytes, response, rfl, hparse, hanswers,
            fun htruncated => ?_, hjudge⟩
          cases protocol with
          | tcp => rfl
          | udp => exact absurd ⟨htruncated, rfl⟩ hcomplete
      next => cases hjudge

theorem AttemptFailure.answer_not_cacheable (failure : AttemptFailure)
    (question : Question) :
    ¬(failure.answer question).status.isCacheable := by
  cases failure <;> exact Bool.false_ne_true

namespace InFlight

variable {κ γ : Type} {entry : InFlight κ γ} {settings : Settings}
  {answer : Answer}

theorem afterFailure_not_cacheable {failure : AttemptFailure}
    (hanswered : entry.afterFailure settings failure = .answered answer) :
    ¬answer.status.isCacheable := by
  rw [afterFailure] at hanswered
  split at hanswered
  next => cases hanswered
  next =>
    cases hanswered
    exact failure.answer_not_cacheable entry.question

theorem sequel_cacheable {ending : AttemptEnd}
    (hanswered : entry.sequel settings ending = .answered answer)
    (hcacheable : answer.status.isCacheable) :
    ∃ result, ending = .result result ∧
      judge entry.question entry.messageId entry.protocol
        settings.negativeTtl result =
        .settled answer := by
  cases ending with
  | alarm => exact absurd hcacheable (afterFailure_not_cacheable hanswered)
  | result result =>
      refine ⟨result, rfl, ?_⟩
      rw [sequel] at hanswered
      cases hjudge : judge entry.question entry.messageId entry.protocol
        settings.negativeTtl result with
      | settled settled =>
          rw [hjudge] at hanswered
          cases hanswered
          rfl
      | truncated =>
          rw [hjudge] at hanswered
          cases hanswered
      | failed failure =>
          rw [hjudge] at hanswered
          exact absurd hcacheable (afterFailure_not_cacheable hanswered)

end InFlight

namespace Engine

variable {κ γ : Type}

/-- An answer comes from a step: the exchange of the current attempt for its
question brought a response to the query, and the answer is what that response
says. -/
structure Step.Brought (step : Step κ γ) (answer : Answer)
    (entry : InFlight κ γ) (bytes : Octets) (query response : Message) :
    Prop where
  started : step.before.started
  event :
    step.event = .ended answer.question entry.generation (.result (.ok bytes))
  current : step.before.current? answer.question entry.generation = some entry
  outstanding : entry.exchange ∈ step.before.exchanges
  sent : Message.decode? entry.exchange.query = some query
  asked : ∃ asked, query.questions = [asked] ∧
    asked.typeCode = answer.question.type.code
  received : Message.decode? bytes = some response
  id : response.header.id = entry.messageId
  echoes : response.Echoes query
  rcode : response.rcode = Message.Rcode.noError ∨
    response.rcode = Message.Rcode.nxDomain
  complete : response.header.truncated → entry.exchange.protocol = .tcp
  answer_eq : answer =
    (Response.ofMessage response).answerTo answer.question
    step.before.settings.negativeTtl

def Step.Brings (step : Step κ γ) (answer : Answer) : Prop :=
  ∃ entry bytes query response, step.Brought answer entry bytes query response

/-- The steps since an engine started: those behind the last one that found it
at rest, and that one. To start an engine that runs changes nothing and begins
no period. -/
def notePeriod (period : List (Step κ γ)) (step : Step κ γ) : List (Step κ γ) :=
  if step.before.started then period ++ [step] else [step]

theorem mem_notePeriod (period : List (Step κ γ)) (step : Step κ γ) :
    step ∈ notePeriod period step := by
  rw [notePeriod]
  split <;> simp

structure Sourced (engine : Engine κ γ) (period : List (Step κ γ)) : Prop where
  seen : ∀ question, ∃ sightings : Sightings κ γ,
    Seen engine.settings engine.ids question engine sightings
  idle : engine.started = false → engine.cache.entries = []
  sources : ∀ kept ∈ engine.cache.entries,
    kept.answer.status.isCacheable ∧
    ∃ source ∈ period, source.Brings kept.answer

namespace Sourced

variable {engine : Engine κ γ} {period : List (Step κ γ)} {now : Nat}

theorem brings (hsourced : Sourced engine period) {question : Question}
    {generation : Nat} {ending : AttemptEnd} {entry : InFlight κ γ}
    {answer : Answer}
    (hcurrent : engine.current? question generation = some entry)
    (hanswered : entry.sequel engine.settings ending = .answered answer)
    (hcacheable : answer.status.isCacheable) (effect : Effect κ γ) :
    Step.Brings ⟨engine, now, .ended question generation ending, effect⟩
      answer := by
  obtain ⟨hentry, rfl⟩ := entry?_of_current? hcurrent
  obtain ⟨sightings, hseen⟩ := hsourced.seen question
  -- What was seen of the question tells how the entry's query was built.
  obtain ⟨life, -, htracks⟩ := hseen.exists_life hentry
  have hquestion : answer.question = question :=
    (InFlight.sequel_question hanswered).trans (entry?_question hentry)
  have hstarted : engine.started := by
    cases hstarted : engine.started with
    | true => rfl
    | false =>
        have hmem := entry?_mem hentry
        rw [hseen.armed.idle hstarted] at hmem
        cases hmem
  obtain ⟨result, rfl, hjudge⟩ := InFlight.sequel_cacheable hanswered hcacheable
  obtain ⟨bytes, response, rfl, hparse, hanswers, hcomplete, hverdict⟩ :=
    judge_settled hjudge
  obtain ⟨hrcode, hanswer⟩ := Response.verdict_settled hverdict
  obtain ⟨query, received, hsent, hid, hasked, hreceived, rfl, hechoes⟩ :=
    Message.echoes_of_answers htracks.built hparse hanswers
  rw [entry?_question hentry, ← hquestion] at hasked hanswer
  subst hquestion
  exact ⟨entry, bytes, query, received, {
    started := hstarted
    event := rfl
    current := hcurrent
    outstanding := hseen.armed.serves.exchanges.mem_iff.mpr
      (List.mem_map_of_mem (entry?_mem hentry))
    sent := hsent
    asked := hasked
    received := hreceived
    id := hechoes.id.trans hid
    echoes := hechoes
    rcode := hrcode
    complete := hcomplete
    answer_eq := hanswer }⟩

theorem create (settings : Settings) (ids : Nat → UInt16) :
    Sourced (.create settings ids : Engine κ γ) [] where
  seen _ := ⟨{}, create_seen⟩
  idle _ := rfl
  sources := nofun

variable [DecidableEq κ]

theorem still_idle (hsourced : Sourced engine period)
    (hstarted : engine.started = false) (event : Event κ γ) :
    (engine.perform now event).engine.cache.entries = [] := by
  rw [List.eq_nil_iff_forall_not_mem]
  intro kept hkept
  rcases perform_cache hkept with
    hold | ⟨question, generation, ending, entry, -, hcurrent, -⟩
  · rw [hsourced.idle hstarted] at hold
    cases hold
  · obtain ⟨sightings, hseen⟩ := hsourced.seen question
    have hmem := entry?_mem (entry?_of_current? hcurrent).1
    rw [hseen.armed.idle hstarted] at hmem
    cases hmem

theorem next (hsourced : Sourced engine period) (event : Event κ γ) :
    let effect := engine.perform now event
    Sourced effect.engine (notePeriod period ⟨engine, now, event, effect⟩) := by
  intro effect
  have hmove := engine.perform_move now event
  let step : Step κ γ := ⟨engine, now, event, effect⟩
  constructor
  · intro question
    obtain ⟨sightings, hseen⟩ := hsourced.seen question
    have hbefore :
        Seen engine.settings engine.ids question step.before sightings := hseen
    rw [hmove.settings_eq, hmove.ids_eq]
    exact ⟨_, hbefore.next hmove⟩
  · intro hstopped
    cases hstarted : engine.started with
    | true => exact hmove.cleared hstarted hstopped
    | false => exact hsourced.still_idle hstarted event
  · intro kept hkept
    rcases perform_cache hkept with
      hold | ⟨question, generation, ending, entry, rfl, hcurrent,
        hanswered, hcacheable⟩
    · obtain ⟨hcacheable, source, hsource, hbrings⟩ :=
        hsourced.sources kept hold
      refine ⟨hcacheable, source, ?_, hbrings⟩
      -- A new period begins only when the engine was at rest, and then there is
      -- no old answer.
      cases hstarted : engine.started with
      | true => simp [notePeriod, hstarted, hsource]
      | false =>
          rw [hsourced.idle hstarted] at hold
          cases hold
    · exact ⟨hcacheable, _, mem_notePeriod _ _,
        hsourced.brings hcurrent hanswered hcacheable _⟩

end Sourced

theorem mem_parked {engine : Engine κ γ} {entry : InFlight κ γ}
    {delivery : Delivery κ γ} (hentry : entry ∈ engine.inFlight)
    (hwaiter : delivery.waiter ∈ entry.waiters)
    (hquestion : delivery.answer.question = entry.question) :
    delivery.request ∈ engine.parked := by
  rw [Delivery.request, hquestion]
  exact List.mem_flatMap.mpr ⟨entry, hentry, List.mem_map_of_mem hwaiter⟩

theorem Move.handed [DecidableEq κ] {engine : Engine κ γ} {now : Nat}
    {event : Event κ γ} {effect : Effect κ γ}
    (hmove : engine.Move now event effect) {delivery : Delivery κ γ}
    (hdelivery : delivery ∈ effect.deliveries) :
    delivery.request ∈ engine.parked ∧
      (delivery.answer.status.isCacheable → ∃ question generation ending entry,
        event = .ended question generation ending ∧
        engine.current? question generation = some entry ∧
        entry.sequel engine.settings ending = .answered delivery.answer) := by
  cases hmove with
  | proceeded question generation ending entry hcurrent =>
      cases hsequel : entry.sequel engine.settings ending with
      | again server protocol retriesDone =>
          rw [hsequel] at hdelivery
          cases hdelivery
      | answered answer =>
          rw [hsequel] at hdelivery
          obtain ⟨waiter, hwaiter, rfl⟩ := List.mem_map.mp hdelivery
          have hentry := entry?_mem (entry?_of_current? hcurrent).1
          refine ⟨mem_parked hentry hwaiter (InFlight.sequel_question hsequel),
            fun _ => ?_⟩
          exact ⟨question, generation, ending, entry, rfl, hcurrent, hsequel⟩
  | stopped =>
      obtain ⟨entry, hentry, hgiven⟩ := List.mem_flatMap.mp hdelivery
      obtain ⟨waiter, hwaiter, rfl⟩ := List.mem_map.mp hgiven
      exact ⟨mem_parked hentry hwaiter rfl, nofun⟩
  | _ => cases hdelivery

theorem run_sourced [DecidableEq κ] (settings : Settings) (ids : Nat → UInt16)
    (events : List (Event κ γ)) :
    let watched := Watched.run notePeriod [] settings ids events
    Sourced watched.engine watched.notes :=
  Watched.run_induction Sourced (Sourced.create settings ids)
    (fun _ event hsourced _ => hsourced.next event) events

/-- Whatever an engine says of the data of a question was brought, while the
engine was running, by the exchange of the current attempt for that question: by
the step that hands it out, or by one since the engine started when it comes
from the cache. -/
theorem answers_have_sources [DecidableEq κ] (settings : Settings)
    (ids : Nat → UInt16) (events : List (Event κ γ)) :
    let watched := Watched.run notePeriod [] settings ids events
    (∀ kept ∈ watched.engine.cache.entries,
      kept.answer.status ∈ [Status.ok, .noData, .noDomain] ∧
        ∃ source ∈ watched.notes, source.Brings kept.answer) ∧
    ∀ event,
      let step := watched.step event
      (∀ delivery ∈ step.effect.deliveries,
      delivery.request ∈ watched.engine.parked ∧
        (delivery.answer.status ∈ [Status.ok, .noData, .noDomain] →
          step.Brings delivery.answer)) ∧
      (∀ question answer, event = .lookup question → step.effect.found? =
        some answer →
        answer.question = question ∧
        ∃ source ∈ watched.notes, source.Brings answer) ∧
      ∀ question caller context flags answer back,
        event = .resolve question caller context flags →
        step.effect.resolution? = some (.ok (.ready answer back)) →
        answer.question = question ∧
          (answer.status ∈ [Status.ok, .noData, .noDomain] →
            ∃ source ∈ watched.notes, source.Brings answer) := by
  intro watched
  have hsourced : Sourced watched.engine watched.notes :=
    run_sourced settings ids events
  have hkept {kept : CacheEntry} (hmem : kept ∈ watched.engine.cache.entries) :
      ∃ source ∈ watched.notes, source.Brings kept.answer :=
        (hsourced.sources kept hmem).2
  refine ⟨fun kept hmem => ?_, fun event => ⟨?_, ?_, ?_⟩⟩
  · exact ⟨Status.isCacheable_iff.mp (hsourced.sources kept hmem).1, hkept hmem⟩
  · intro delivery hdelivery
    obtain ⟨hparked, hended⟩ :=
      (perform_move watched.engine watched.now event).handed hdelivery
    refine ⟨hparked, fun hstatus => ?_⟩
    have hcacheable := Status.isCacheable_iff.mpr hstatus
    obtain ⟨question, generation, ending, entry, rfl, hcurrent, hanswered⟩ :=
      hended hcacheable
    exact hsourced.brings hcurrent hanswered hcacheable _
  · rintro question answer rfl hfound
    obtain ⟨counters, hlookup, -⟩ :=
      lookup_eq watched.engine watched.now question
    simp only [Watched.step, perform, hlookup] at hfound
    obtain ⟨kept, hmem, rfl, hquestion⟩ := AnswerCache.get_mem hfound
    exact ⟨hquestion, hkept hmem⟩
  · rintro question caller context flags answer back rfl hresolution
    rcases resolve_ready (Option.some.inj hresolution) with
      rfl | ⟨kept, hmem, rfl, hquestion⟩
    · exact ⟨rfl, fun hstatus =>
        absurd hstatus (by simp [refusal, Answer.failure])⟩
    · exact ⟨hquestion, fun _ => hkept hmem⟩

end Engine

end DnsForwarder
