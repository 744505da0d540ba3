import DnsForwarder.Proofs.Cache
import DnsForwarder.Proofs.Engine.Attempts
import Mathlib.Data.List.Perm.Basic

/-! The requests that wait for an engine. No event loses one or doubles one:
what waited, and what is let in, waits afterwards, is taken back by its caller
or gets an answer to its question. -/

namespace DnsForwarder

structure Request (κ γ : Type) where
  question : Question
  waiter : Waiter κ γ

section Numbers

variable {α : Type} {items : List α} {number : α → Nat} {numbers : List Nat}
  {wanted : Nat}

theorem mem_findIdxs {test : α → Bool} :
    wanted ∈ items.findIdxs test ↔ ∃ item, items[wanted]? = some item ∧
      test item = true := by
  rw [List.mem_findIdxs_iff_exists_getElem_pos]
  constructor
  · rintro ⟨hlt, htest⟩
    exact ⟨_, List.getElem?_eq_getElem hlt, htest⟩
  · rintro ⟨item, hitem, htest⟩
    obtain ⟨hlt, rfl⟩ := List.getElem?_eq_some_iff.mp hitem
    exact ⟨hlt, htest⟩

theorem filter_number_of_mem (hperm : (items.map number).Perm numbers)
    (hnodup : numbers.Nodup) (hwanted : wanted ∈ numbers) :
    ∃ item ∈ items, number item = wanted ∧
      items.filter (fun item => number item == wanted) = [item] := by
  have hcount : (items.map number).count wanted = 1 := by
    rw [hperm.count_eq]
    exact List.count_eq_one_of_mem hnodup hwanted
  have hlength :
      (items.filter fun item => number item == wanted).length = 1 := by
    rw [← List.countP_eq_length_filter, ← hcount, List.count, List.countP_map]
    rfl
  obtain ⟨item, hitem⟩ := List.length_eq_one_iff.mp hlength
  have hmem : item ∈ items.filter fun item => number item == wanted := by
    rw [hitem]
    exact List.mem_singleton_self item
  obtain ⟨hfound, hnumber⟩ := List.mem_filter.mp hmem
  exact ⟨item, hfound, eq_of_beq hnumber, hitem⟩

theorem filter_number_of_not_mem (hperm : (items.map number).Perm numbers)
    (hwanted : wanted ∉ numbers) :
    items.filter (fun item => number item == wanted) = [] := by
  rw [List.filter_eq_nil_iff]
  intro item hitem hnumber
  apply hwanted
  rw [← hperm.mem_iff, ← eq_of_beq hnumber]
  exact List.mem_map_of_mem hitem

end Numbers

variable {κ γ : Type}

def InFlight.requests (entry : InFlight κ γ) : List (Request κ γ) :=
  entry.waiters.map fun waiter => ⟨entry.question, waiter⟩

def Delivery.request (delivery : Delivery κ γ) : Request κ γ :=
  ⟨delivery.answer.question, delivery.waiter⟩

theorem AttemptFailure.answer_question (failure : AttemptFailure)
    (question : Question) :
    (failure.answer question).question = question := by
  cases failure <;> rfl

theorem Response.verdict_question {response : Response} {question : Question}
    {negativeTtl : UInt32} {answer : Answer}
    (hverdict : response.verdict question negativeTtl = .settled answer) :
    answer.question = question := by
  unfold Response.verdict at hverdict
  split at hverdict
  · cases hverdict
    rfl
  · split at hverdict
    · cases hverdict
      rfl
    · split at hverdict <;> cases hverdict

theorem judge_question {question : Question} {messageId : UInt16}
    {protocol : Protocol} {negativeTtl : UInt32}
    {result : Except Error Octets} {answer : Answer}
    (hjudge : judge question messageId protocol negativeTtl result =
      .settled answer) :
    answer.question = question := by
  unfold judge at hjudge
  split at hjudge
  · cases hjudge
  · split at hjudge
    · cases hjudge
    · split at hjudge
      · split at hjudge
        · cases hjudge
        · exact Response.verdict_question hjudge
      · cases hjudge

namespace InFlight

theorem afterFailure_question {entry : InFlight κ γ} {settings : Settings}
    {failure : AttemptFailure} {answer : Answer}
    (hanswered : entry.afterFailure settings failure = .answered answer) :
    answer.question = entry.question := by
  unfold afterFailure at hanswered
  split at hanswered
  · cases hanswered
  · cases hanswered
    exact failure.answer_question entry.question

theorem sequel_question {entry : InFlight κ γ} {settings : Settings}
    {ending : AttemptEnd} {answer : Answer}
    (hanswered : entry.sequel settings ending = .answered answer) :
    answer.question = entry.question := by
  cases ending with
  | alarm => exact afterFailure_question hanswered
  | result result =>
      cases hjudge : judge entry.question entry.messageId entry.protocol
        settings.negativeTtl result with
      | settled settled =>
          simp only [sequel, hjudge, afterVerdict] at hanswered
          cases hanswered
          exact judge_question hjudge
      | truncated =>
          simp only [sequel, hjudge, afterVerdict] at hanswered
          cases hanswered
      | failed failure =>
          simp only [sequel, hjudge, afterVerdict] at hanswered
          exact afterFailure_question hanswered

end InFlight

namespace Engine

theorem resolve_ready_cases {engine : Engine κ γ} {now : Nat}
    {question : Question} {caller : κ} {context back : γ} {flags : Flags}
    {answer : Answer}
    (hready : (engine.resolve now question caller context flags).2 =
      .ok (.ready answer back)) :
    flags.cacheOnly = true ∧ answer = refusal question ∨
      flags.bypassCache = false ∧ (engine.cache.get now question).2 =
        some answer := by
  have htreatment := engine.resolve_treatment now question caller context flags
  generalize engine.resolve now question caller context flags = outcome
    at hready htreatment
  obtain ⟨after, resolution⟩ := outcome
  cases hready
  cases htreatment with
  | served _ hstarted hcached hfound => exact .inr ⟨hcached, hfound⟩
  | refused hstarted hmisses hcacheOnly => exact .inl ⟨hcacheOnly, rfl⟩

theorem resolve_ready {engine : Engine κ γ} {now : Nat} {question : Question}
    {caller : κ} {context back : γ} {flags : Flags} {answer : Answer}
    (hready : (engine.resolve now question caller context flags).2 =
      .ok (.ready answer back)) :
    answer = refusal question ∨
      ∃ kept ∈ engine.cache.entries, kept.answer = answer ∧
      answer.question = question := by
  rcases resolve_ready_cases hready with ⟨-, hrefusal⟩ | ⟨-, hget⟩
  · exact .inl hrefusal
  · exact .inr (AnswerCache.get_mem hget)

theorem resolve_question {engine after : Engine κ γ} {now : Nat}
    {question : Question} {caller : κ} {context back : γ} {flags : Flags}
    {answer : Answer}
    (hresolve : engine.resolve now question caller context flags =
      (after, .ok (.ready answer back))) :
    answer.question = question := by
  have hready := congrArg Prod.snd hresolve
  rcases resolve_ready hready with rfl | ⟨-, -, -, hquestion⟩
  · rfl
  · exact hquestion

def parked (engine : Engine κ γ) : List (Request κ γ) :=
  engine.inFlight.flatMap InFlight.requests

def Event.admitted (event : Event κ γ)
    (resolution? : Option (Except Error (Resolution γ))) :
    List (Request κ γ) :=
  match event, resolution? with
  | .resolve question caller context _, some (.ok .pending) =>
      [⟨question, ⟨caller, context⟩⟩]
  | _, _ => []

def taken [DecidableEq κ] (engine : Engine κ γ) : Event κ γ → List (Request κ γ)
  | .cancel caller =>
      engine.parked.filter fun request => request.waiter.caller = caller
  | _ => []

theorem requests_middle (front : List (InFlight κ γ)) (entry : InFlight κ γ)
    (back : List (InFlight κ γ)) :
    ((front ++ entry :: back).flatMap InFlight.requests).Perm
      (entry.requests ++ (front ++ back).flatMap InFlight.requests) :=
  List.perm_middle.flatMap_right InFlight.requests

theorem deliveries_request {entry : InFlight κ γ} {answer : Answer}
    (hquestion : answer.question = entry.question) :
    (deliveries entry.waiters answer).map Delivery.request =
      entry.requests := by
  simp [deliveries, Delivery.request, InFlight.requests,
    Function.comp_def, hquestion]

section Operations

variable {engine : Engine κ γ} {entry : InFlight κ γ}

theorem join_parked (hkeyed : engine.Keyed) {question : Question}
    (hentry : engine.entry? question = some entry) (waiter : Waiter κ γ) :
    (engine.join entry waiter).parked.Perm
      (engine.parked ++ [⟨question, waiter⟩]) := by
  obtain ⟨front, back, hsplit⟩ := hkeyed.split hentry
  have hrequests :
      InFlight.requests { entry with waiters := entry.waiters ++ [waiter] } =
      entry.requests ++ [⟨question, waiter⟩] := by
    simp [InFlight.requests, entry?_question hentry]
  rw [parked, parked, hsplit.join_inFlight, hsplit.eq]
  refine (requests_middle front _ back).trans ?_
  refine List.Perm.trans ?_
    ((requests_middle front entry back).append_right _).symm
  rw [hrequests, List.append_assoc, List.append_assoc]
  exact List.perm_append_comm.append_left entry.requests

theorem openEntry_parked {question : Question}
    (hentry : engine.entry? question = none) (now : Nat) (query : Octets)
    (waiter : Waiter κ γ) :
    (engine.openEntry now question query waiter).parked =
      engine.parked ++ [⟨question, waiter⟩] := by
  have hfresh :
      engine.turned.entry? (engine.newEntry question query waiter).question =
      none :=
    hentry
  rw [openEntry_eq, parked, launch_inFlight_of_none hfresh, List.flatMap_append]
  rfl

theorem cancel_parked [DecidableEq κ] (engine : Engine κ γ) (caller : κ) :
    (engine.cancel caller).1.parked =
      engine.parked.filter fun request => request.waiter.caller ≠ caller := by
  simp [Engine.cancel, parked, List.filter_flatMap, List.flatMap_map,
    InFlight.requests, List.filter_map, Function.comp_def]

theorem proceed_parked (hkeyed : engine.Keyed) {question : Question}
    (hentry : engine.entry? question = some entry) {generation : Nat}
    {ending : AttemptEnd} (now : Nat) {sequel : Sequel}
    (hquestion : ∀ answer, sequel = .answered answer →
      answer.question = entry.question) :
    let outcome := (engine.afterEnd generation ending).proceed now entry sequel
    engine.parked.Perm
    (outcome.1.parked ++ outcome.2.map Delivery.request) := by
  intro outcome
  obtain ⟨front, back, hsplit⟩ := hkeyed.split hentry
  have hsplit' :
      Split (engine.afterEnd generation ending).inFlight entry front back :=
      hsplit
  have hbefore := requests_middle front entry back
  cases hsequel : sequel with
  | again server protocol retriesDone =>
      let changed : InFlight κ γ :=
        { entry with
          server, protocol, retriesDone, generation := engine.generations + 1 }
      have hafter : changed.requests = entry.requests := rfl
      have hback := (requests_middle front changed back).symm
      rw [hafter] at hback
      simp only [outcome, hsequel, proceed, parked, hsplit.eq]
      rw [hsplit'.launch_inFlight now (by rfl), List.map_nil, List.append_nil]
      exact hbefore.trans hback
  | answered answer =>
      simp only [outcome, hsequel, proceed, parked, hsplit.eq]
      rw [hsplit'.settle_inFlight]
      simp only [settle, deliveries_request (hquestion answer hsequel)]
      exact hbefore.trans List.perm_append_comm

theorem stop_deliveries (engine : Engine κ γ) :
    engine.stop.2.map Delivery.request = engine.parked := by
  simp [stop, parked, List.map_flatMap, deliveries_request, Answer.failure]

end Operations

/-- What waits before an event, with what it lets in, is what waits after it,
what it takes back and what gets an answer. -/
theorem Move.parked_perm [DecidableEq κ] {engine : Engine κ γ} {now : Nat}
    {event : Event κ γ} {effect : Effect κ γ} (hkeyed : engine.Keyed)
    (hmove : engine.Move now event effect) :
    (engine.parked ++ event.admitted effect.resolution?).Perm
      (effect.engine.parked ++ engine.taken event ++
        effect.deliveries.map Delivery.request) := by
  cases hmove with
  | aside event started cache counters resolution? found? hstarted
    hresolution hspares =>
      have hadmitted : event.admitted resolution? = [] := by
        unfold Event.admitted
        split
        · exact absurd rfl hresolution
        · rfl
      have htaken : engine.taken event = [] := by
        cases event with
        | cancel caller => cases hspares
        | _ => rfl
      simp only [hadmitted, htaken, List.map_nil, List.append_nil]
      rfl
  | joined question caller context flags cache entry hstarted hentry =>
      have hkeyed' : Keyed { engine with cache } := hkeyed
      simp only [Event.admitted, taken, List.map_nil, List.append_nil]
      exact (join_parked hkeyed' hentry ⟨caller, context⟩).symm
  | opened question caller context flags cache query hstarted hentry hquery =>
      have hentry' : Engine.entry? { engine with cache } question = none :=
        hentry
      simp only [Event.admitted, taken, openEntry_parked hentry', List.map_nil,
        List.append_nil]
      rfl
  | cancelled caller =>
      simp only [Event.admitted, taken, cancel_parked, List.map_nil,
        List.append_nil]
      have hsplit :=
        List.filter_append_perm (fun request => request.waiter.caller = caller)
          engine.parked
      refine hsplit.symm.trans ?_
      refine List.perm_append_comm.trans ?_
      simp
  | proceeded question generation ending entry hcurrent =>
      obtain ⟨hentry, rfl⟩ := entry?_of_current? hcurrent
      simpa [Event.admitted, taken] using
        proceed_parked hkeyed hentry now fun answer => InFlight.sequel_question
  | stopped =>
      simp only [Event.admitted, taken, stop_deliveries, List.append_nil]
      exact List.Perm.refl _

theorem Move.withdrawn_eq [DecidableEq κ] {engine : Engine κ γ} {now : Nat}
    {event : Event κ γ} {effect : Effect κ γ}
    (hmove : engine.Move now event effect) :
    effect.withdrawn = (engine.taken event).map Request.waiter := by
  cases hmove with
  | aside event started cache counters resolution? found? hstarted
    hresolution hspares =>
      cases event with
      | cancel caller => cases hspares
      | _ => rfl
  | cancelled caller =>
      simp [Engine.cancel, taken, parked, List.filter_flatMap, List.map_flatMap,
        InFlight.requests, List.filter_map, Function.comp_def]
  | _ => rfl

end Engine

end DnsForwarder
