import DnsForwarder.Proofs.Engine.Contexts
import DnsForwarder.Proofs.Engine.Delivery
import DnsForwarder.Proofs.Engine.Turns
import Mathlib.Logic.Function.Basic

/-! Where the request of every call is. A ledger runs an engine whose contexts
are numbered and puts down what becomes of the numbers. Callers may call the
engine again while answers are handed out, so answers are handed out one at a
time, with events in between. -/

namespace DnsForwarder.Engine

structure Call (κ γ : Type) where
  question : Question
  caller : κ
  context : γ
  resolution : Except Error (Resolution γ)

def Call.isPending {κ γ : Type} (call : Call κ γ) : Bool :=
  match call.resolution with
  | .ok .pending => true
  | _ => false

theorem Call.isPending_iff {κ γ : Type} (call : Call κ γ) :
    call.isPending ↔ call.resolution = .ok .pending := by
  rw [isPending]
  split <;> simp_all

inductive Act (κ γ : Type) where
  | perform (event : Event κ γ)
  | hand

def Act.event? {κ γ : Type} : Act κ γ → Option (Event κ γ)
  | .perform event => some event
  | .hand => none

structure Ledger (κ γ : Type) where
  engine : Engine κ (Numbered γ)
  now : Nat := 0
  /-- The call that began the latest entry of a question. -/
  openers : Question → Nat := fun _ => 0
  calls : List (Call κ γ) := []
  inHand : List (Delivery κ (Numbered γ)) := []
  handed : List (Delivery κ (Numbered γ)) := []
  /-- The requests that callers took back, each with the caller that did. -/
  withdrawn : List (κ × Waiter κ (Numbered γ)) := []

inductive Place (κ γ : Type) where
  | parked (request : Request κ (Numbered γ))
  | inHand (delivery : Delivery κ (Numbered γ))
  | handed (delivery : Delivery κ (Numbered γ))
  | withdrawn (caller : κ) (waiter : Waiter κ (Numbered γ))

variable {κ γ : Type}

namespace Place

def waiter : Place κ γ → Waiter κ (Numbered γ)
  | .parked request => request.waiter
  | .inHand delivery | .handed delivery => delivery.waiter
  | .withdrawn _ waiter => waiter

def number (place : Place κ γ) : Nat :=
  place.waiter.context.number

/-- What the place of a call's request says agrees with the call. -/
def Fits (place : Place κ γ) (call : Call κ γ) : Prop :=
  place.waiter.caller = call.caller ∧ place.waiter.context.context =
    call.context ∧
    match place with
    | .parked request => request.question = call.question
    | .inHand delivery | .handed delivery =>
        delivery.answer.question = call.question
    | .withdrawn caller _ => caller = call.caller

end Place

def Event.calls (event : Event κ γ)
    (resolution? : Option (Except Error (Resolution γ))) :
    List (Call κ γ) :=
  match event, resolution? with
  | .resolve question caller context _, some resolution =>
      [⟨question, caller, context, resolution⟩]
  | _, _ => []

def Event.withdrawals (event : Event κ γ)
    (withdrawn : List (Waiter κ (Numbered γ))) :
    List (κ × Waiter κ (Numbered γ)) :=
  match event with
  | .cancel caller => withdrawn.map fun waiter => (caller, waiter)
  | _ => []

namespace Ledger

def openerOf (ledger : Ledger κ γ) (question : Question) : Nat :=
  if (ledger.engine.entry? question).isSome then ledger.openers question
    else ledger.calls.length

def numbered (ledger : Ledger κ γ) : Event κ γ → Event κ (Numbered γ)
  | .resolve question caller context flags =>
      .resolve question caller ⟨ledger.calls.length, ledger.openerOf question,
        context⟩ flags
  | event => event.mapContext fun context => ⟨ledger.calls.length, 0, context⟩

def openersAfter (ledger : Ledger κ γ) : Event κ γ → Question → Nat
  | .resolve question _ _ _ =>
      Function.update ledger.openers question (ledger.openerOf question)
  | _ => ledger.openers

def take (ledger : Ledger κ γ) (event : Event κ γ)
    (effect : Effect κ (Numbered γ)) :
    Ledger κ γ where
  engine := effect.engine
  now := event.clock ledger.now
  openers := ledger.openersAfter event
  calls :=
    ledger.calls ++ event.calls (effect.mapContext Numbered.context).resolution?
  inHand := effect.deliveries ++ ledger.inHand
  handed := ledger.handed
  withdrawn := ledger.withdrawn ++ event.withdrawals effect.withdrawn

def act [DecidableEq κ] (ledger : Ledger κ γ) : Act κ γ → Ledger κ γ
  | .perform event =>
      ledger.take event
        (ledger.engine.perform ledger.now (ledger.numbered event))
  | .hand =>
      match ledger.inHand with
      | [] => ledger
      | delivery :: inHand =>
          { ledger with inHand, handed := ledger.handed ++ [delivery] }

def run [DecidableEq κ] (settings : Settings) (ids : Nat → UInt16)
    (acts : List (Act κ γ)) :
    Ledger κ γ :=
  acts.foldl act { engine := .create settings ids }

def places (ledger : Ledger κ γ) : List (Place κ γ) :=
  ledger.engine.parked.map .parked ++ ledger.inHand.map .inHand ++
    ledger.handed.map .handed ++
    ledger.withdrawn.map fun (caller, waiter) => .withdrawn caller waiter

def placesOf (ledger : Ledger κ γ) (number : Nat) : List (Place κ γ) :=
  ledger.places.filter fun place => place.number == number

/-- The numbers of the calls whose requests were left to wait. -/
def pending (ledger : Ledger κ γ) : List Nat :=
  ledger.calls.findIdxs Call.isPending

/-- The request of every call that was left to wait is in one place, which
agrees with the call; there are no other requests. -/
structure Accounted (ledger : Ledger κ γ) : Prop where
  armed : ledger.engine.Armed
  once : (ledger.places.map Place.number).Perm ledger.pending
  fits : ∀ place ∈ ledger.places, ∃ call,
    ledger.calls[place.number]? = some call ∧ place.Fits call

variable {ledger : Ledger κ γ} {event : Event κ γ}
  {effect : Effect κ (Numbered γ)}

theorem mem_places {place : Place κ γ} :
    place ∈ ledger.places ↔
      (∃ request ∈ ledger.engine.parked, place = .parked request) ∨
      (∃ delivery ∈ ledger.inHand, place = .inHand delivery) ∨
      (∃ delivery ∈ ledger.handed, place = .handed delivery) ∨
      ∃ entry ∈ ledger.withdrawn, place = .withdrawn entry.1 entry.2 := by
  simp [places, eq_comm]

theorem numbers_eq :
    ledger.places.map Place.number =
      (ledger.engine.parked.map fun request => request.waiter.context.number) ++
        (ledger.inHand.map fun delivery => delivery.waiter.context.number) ++
        (ledger.handed.map fun delivery => delivery.waiter.context.number) ++
        ledger.withdrawn.map fun entry => entry.2.context.number := by
  simp [places, Place.number, Place.waiter, Function.comp_def]

theorem take_pending :
    (ledger.take event effect).pending = ledger.pending ++
      ((ledger.numbered event).admitted effect.resolution?).map
        fun request => request.waiter.context.number := by
  rw [pending, Ledger.take, List.findIdxs_append, Nat.zero_add]
  refine congrArg (ledger.pending ++ ·) ?_
  cases event with
  | resolve question caller context flags =>
      rw [Effect.mapContext]
      cases effect.resolution? with
      | none => rfl
      | some resolution =>
          cases resolution with
          | error error => rfl
          | ok resolution => cases resolution <;> rfl
  | _ => rfl

theorem calls_kept {number : Nat} {call : Call κ γ}
    (hcall : ledger.calls[number]? = some call) :
    (ledger.take event effect).calls[number]? = some call := by
  obtain ⟨hlt, -⟩ := List.getElem?_eq_some_iff.mp hcall
  rw [take, List.getElem?_append_left hlt, hcall]

theorem Accounted.made (haccounted : ledger.Accounted)
    {request : Request κ (Numbered γ)}
    (hrequest : request ∈ ledger.engine.parked ++
      (ledger.numbered event).admitted effect.resolution?) :
    ∃ call, (ledger.take event effect).calls[request.waiter.context.number]? =
      some call ∧
      request.question = call.question ∧ request.waiter.caller = call.caller ∧
      request.waiter.context.context = call.context := by
  rcases List.mem_append.mp hrequest with hparked | hadmitted
  · obtain ⟨call, hcall, hcaller, hcontext, hquestion⟩ :=
      haccounted.fits (.parked request)
        (mem_places.mpr (.inl ⟨request, hparked, rfl⟩))
    exact ⟨call, calls_kept hcall, hquestion, hcaller, hcontext⟩
  · cases event with
    | resolve question caller context flags =>
        cases hresolution : effect.resolution? with
        | none =>
            rw [hresolution] at hadmitted
            cases hadmitted
        | some resolution =>
            rw [hresolution] at hadmitted
            cases resolution with
            | error error => cases hadmitted
            | ok resolution =>
                cases resolution with
                | ready answer context => cases hadmitted
                | pending =>
                    obtain rfl := List.mem_singleton.mp hadmitted
                    refine ⟨⟨question, caller, context, .ok .pending⟩, ?_,
                      rfl, rfl, rfl⟩
                    simp only [Ledger.take, Effect.mapContext, hresolution,
                      Event.calls]
                    rw [List.getElem?_append_right (Nat.le_refl _),
                      Nat.sub_self]
                    rfl
    | _ => cases hadmitted

theorem create_accounted (settings : Settings) (ids : Nat → UInt16) :
    ({ engine := .create settings ids } : Ledger κ γ).Accounted := by
  refine ⟨create_armed settings ids, ?_, ?_⟩
  · exact List.Perm.refl _
  · simp [places, parked, create]

theorem placesOf_of_pending (haccounted : ledger.Accounted) {number : Nat}
    {call : Call κ γ} (hcall : ledger.calls[number]? = some call)
    (hpending : call.resolution = .ok .pending) :
    ∃ place, ledger.placesOf number = [place] ∧ place.Fits call := by
  have hmem : number ∈ ledger.pending :=
    mem_findIdxs.mpr ⟨call, hcall, call.isPending_iff.mpr hpending⟩
  obtain ⟨place, hfound, rfl, hplace⟩ :=
    filter_number_of_mem haccounted.once List.nodup_findIdxs hmem
  obtain ⟨owner, howner, hfits⟩ := haccounted.fits place hfound
  have hsame : owner = call := by
    rw [hcall] at howner
    exact (Option.some.inj howner).symm
  exact ⟨place, hplace, hsame ▸ hfits⟩

theorem placesOf_of_not_pending (haccounted : ledger.Accounted) {number : Nat}
    {call : Call κ γ} (hcall : ledger.calls[number]? = some call)
    (hsettled : call.resolution ≠ .ok .pending) :
    ledger.placesOf number = [] := by
  refine filter_number_of_not_mem haccounted.once ?_
  intro hmem
  obtain ⟨other, hother, hpending⟩ := mem_findIdxs.mp hmem
  rw [hcall] at hother
  cases hother
  exact hsettled (call.isPending_iff.mp hpending)

def Orderly (ledger : Ledger κ γ) : Prop :=
  InOrder ledger.openers ledger.calls.length ledger.engine.inFlight
    (ledger.handed ++ ledger.inHand)

namespace Orderly

theorem openersAfter_eq {question : Question} {caller : κ} {context : γ}
    {flags : Flags} {entry : InFlight κ (Numbered γ)}
    (hkeyed : ledger.engine.Keyed) (hentry : entry ∈ ledger.engine.inFlight) :
    ledger.openersAfter (.resolve question caller context flags)
      entry.question =
      ledger.openers entry.question := by
  by_cases hsame : entry.question = question
  · subst hsame
    simp [openersAfter, openerOf, hkeyed.entry?_of_mem hentry]
  · simp [openersAfter, Function.update_of_ne hsame]

theorem asked (horderly : ledger.Orderly) (hkeyed : ledger.engine.Keyed)
    (question : Question) (caller : κ) (context : γ) (flags : Flags)
    {next : Nat} (hnext : ledger.calls.length ≤ next) :
    InOrder (ledger.openersAfter (.resolve question caller context flags)) next
      ledger.engine.inFlight (ledger.handed ++ ledger.inHand) := by
  refine InOrder.later horderly hnext ?_
  intro entry hentry
  exact openersAfter_eq hkeyed hentry

theorem joined (horderly : ledger.Orderly) (hkeyed : ledger.engine.Keyed)
    {question : Question} {caller : κ} {context : γ} (flags : Flags)
    {cache : AnswerCache} {entry : InFlight κ (Numbered γ)}
    (hentry : ledger.engine.entry? question = some entry) :
    InOrder (ledger.openersAfter (.resolve question caller context flags))
      (ledger.calls.length + 1)
      ({ ledger.engine with cache }.join entry
        ⟨caller, ledger.calls.length, ledger.openerOf question,
          context⟩).inFlight
      (ledger.handed ++ ledger.inHand) := by
  obtain ⟨front, back, hsplit⟩ := hkeyed.split hentry
  have hsplit' :
      Split (Engine.inFlight { ledger.engine with cache }) entry front back :=
      hsplit
  have hopener : ledger.openerOf question = ledger.openers entry.question := by
    rw [openerOf, hentry, entry?_question hentry]
    rfl
  have hmem := entry?_mem hentry
  have hasked := horderly.asked hkeyed question caller context flags
    (Nat.le_succ ledger.calls.length)
  have hsame :
      ledger.openersAfter (.resolve question caller context flags)
      entry.question =
      ledger.openers entry.question := openersAfter_eq hkeyed hmem
  have hqueued :=
    ((horderly.queued entry hmem).join caller context).later
      (Nat.le_refl _) hsame
  rw [hsplit'.join_inFlight, hopener]
  rw [hsplit.eq] at hasked
  exact hasked.replace (by rfl) hqueued

theorem opened (horderly : ledger.Orderly) (hkeyed : ledger.engine.Keyed)
    {question : Question} {caller : κ} {context : γ} (flags : Flags)
    {cache : AnswerCache} {query : Octets}
    (hentry : ledger.engine.entry? question = none) :
    InOrder (ledger.openersAfter (.resolve question caller context flags))
      (ledger.calls.length + 1)
      ({ ledger.engine with cache }.openEntry ledger.now question query
        ⟨caller, ledger.calls.length, ledger.openerOf question,
          context⟩).inFlight
      (ledger.handed ++ ledger.inHand) := by
  let waiter : Waiter κ (Numbered γ) :=
    ⟨caller, ledger.calls.length, ledger.openerOf question, context⟩
  let opening :=
    Engine.newEntry { ledger.engine with cache } question query waiter
  let entry : InFlight κ (Numbered γ) :=
    { opening with generation := ledger.engine.generations + 1 }
  have hopener : ledger.openerOf question = ledger.calls.length := by
    rw [openerOf, hentry]
    rfl
  have hbegun :
      ledger.openersAfter (.resolve question caller context flags) question =
      ledger.calls.length := by
    simp [openersAfter, hopener]
  have hqueued :
      Queued (ledger.openersAfter (.resolve question caller context flags))
      (ledger.calls.length + 1) entry := by
    constructor <;> simp [entry, opening, newEntry, waiter, hbegun, hopener]
  have hasked :=
    horderly.asked hkeyed question caller context flags (Nat.le_refl _)
  have hfresh :
      Engine.entry? (Engine.turned { ledger.engine with cache })
      opening.question =
      none := hentry
  rw [openEntry_eq, launch_inFlight_of_none hfresh]
  exact (hasked.opened hqueued hbegun).perm
    (List.perm_append_singleton _ _).symm

theorem proceeded (horderly : ledger.Orderly) (hkeyed : ledger.engine.Keyed)
    {question : Question} {generation : Nat} {ending : AttemptEnd}
    {entry : InFlight κ (Numbered γ)}
    (hentry : ledger.engine.entry? question = some entry) (sequel : Sequel) :
    let outcome :=
      (ledger.engine.afterEnd generation ending).proceed ledger.now entry sequel
    InOrder ledger.openers ledger.calls.length outcome.1.inFlight
      (ledger.handed ++ (outcome.2 ++ ledger.inHand)) := by
  intro outcome
  obtain ⟨front, back, hsplit⟩ := hkeyed.split hentry
  have hsplit' :
      Split (ledger.engine.afterEnd generation ending).inFlight entry
      front back :=
    hsplit
  have horder :
      InOrder ledger.openers ledger.calls.length (front ++ entry :: back)
      (ledger.handed ++ ledger.inHand) := hsplit.eq ▸ horderly
  cases sequel with
  | again server protocol retriesDone =>
      simp only [outcome, proceed]
      rw [hsplit'.launch_inFlight ledger.now (by rfl)]
      refine horder.replace (by rfl) ?_
      exact (horder.queued entry (by simp)).fewer (by rfl) (List.Sublist.refl _)
  | answered answer =>
      have hsplitted :
          InOrder ledger.openers ledger.calls.length
          ([entry] ++ (front ++ back))
          (ledger.handed ++ ledger.inHand) := horder.perm List.perm_middle
      have hgiven := hsplitted.give fun _ => answer
      simp only [outcome, proceed]
      rw [hsplit'.settle_inFlight]
      simpa [settle] using hgiven

theorem stopped (horderly : ledger.Orderly) :
    InOrder ledger.openers ledger.calls.length ledger.engine.stop.1.inFlight
      (ledger.handed ++ (ledger.engine.stop.2 ++ ledger.inHand)) := by
  have hall :
      InOrder ledger.openers ledger.calls.length (ledger.engine.inFlight ++ [])
      (ledger.handed ++ ledger.inHand) := by
    rw [List.append_nil]
    exact horderly
  exact hall.give fun entry => .failure .error 0 entry.question

end Orderly

variable [DecidableEq κ]

theorem take_withdrawn
    (hmove : ledger.engine.Move ledger.now (ledger.numbered event) effect) :
    (ledger.take event effect).withdrawn = ledger.withdrawn ++
      (ledger.engine.taken (ledger.numbered event)).map fun request =>
        (request.waiter.caller, request.waiter) := by
  refine congrArg (ledger.withdrawn ++ ·) ?_
  cases event with
  | cancel caller =>
      rw [Event.withdrawals, hmove.withdrawn_eq, List.map_map]
      apply List.map_congr_left
      intro request hrequest
      have hcaller : request.waiter.caller = caller := by
        simpa [numbered, Event.mapContext, taken]
          using (List.mem_filter.mp hrequest).2
      simp [hcaller]
  | _ => rfl

theorem Accounted.take (haccounted : ledger.Accounted)
    (hmove : ledger.engine.Move ledger.now (ledger.numbered event) effect) :
    (ledger.take event effect).Accounted := by
  have hperm := hmove.parked_perm haccounted.armed.keyed
  have hmade {request : Request κ (Numbered γ)}
      (hrequest : request ∈ effect.engine.parked ++
      ledger.engine.taken (ledger.numbered event) ++
      effect.deliveries.map Delivery.request) :=
    haccounted.made (hperm.mem_iff.mpr hrequest)
  refine ⟨haccounted.armed.move hmove, ?_, ?_⟩
  -- `parked_perm` says it of requests; of their numbers it is a matter of
  -- counting.
  · rw [take_pending]
    have hnumbers := hperm.map fun request => request.waiter.context.number
    have honce := haccounted.once
    rw [numbers_eq] at honce
    rw [numbers_eq, take_withdrawn hmove]
    rw [List.perm_iff_count] at hnumbers honce ⊢
    intro number
    have hbefore := honce number
    have hstep := hnumbers number
    simp only [List.map_append, List.map_map, List.count_append,
      Function.comp_def, Delivery.request, Ledger.take] at hbefore hstep ⊢
    omega
  · intro place hplace
    rcases mem_places.mp hplace with
      ⟨request, hrequest, rfl⟩ | ⟨delivery, hdelivery, rfl⟩ |
      ⟨delivery, hdelivery, rfl⟩ | ⟨entry, hentry, rfl⟩
    · obtain ⟨call, hcall, hquestion, hcaller, hcontext⟩ :=
        hmade (List.mem_append_left _ (List.mem_append_left _ hrequest))
      exact ⟨call, hcall, hcaller, hcontext, hquestion⟩
    · rcases List.mem_append.mp hdelivery with hnew | hold
      · obtain ⟨call, hcall, hquestion, hcaller, hcontext⟩ :=
          hmade (List.mem_append_right _ (List.mem_map_of_mem hnew))
        exact ⟨call, hcall, hcaller, hcontext, hquestion⟩
      · obtain ⟨call, hcall, hfits⟩ := haccounted.fits (.inHand delivery)
          (mem_places.mpr (.inr (.inl ⟨delivery, hold, rfl⟩)))
        exact ⟨call, calls_kept hcall, hfits⟩
    · obtain ⟨call, hcall, hfits⟩ := haccounted.fits (.handed delivery)
        (mem_places.mpr (.inr (.inr (.inl ⟨delivery, hdelivery, rfl⟩))))
      exact ⟨call, calls_kept hcall, hfits⟩
    · rw [take_withdrawn hmove] at hentry
      rcases List.mem_append.mp hentry with hold | hnew
      · obtain ⟨call, hcall, hfits⟩ :=
          haccounted.fits (.withdrawn entry.1 entry.2)
          (mem_places.mpr (.inr (.inr (.inr ⟨entry, hold, rfl⟩))))
        exact ⟨call, calls_kept hcall, hfits⟩
      · obtain ⟨request, hrequest, rfl⟩ := List.mem_map.mp hnew
        obtain ⟨call, hcall, -, hcaller, hcontext⟩ :=
          hmade (List.mem_append_left _ (List.mem_append_right _ hrequest))
        exact ⟨call, hcall, hcaller, hcontext, hcaller⟩

theorem hand_eq {delivery : Delivery κ (Numbered γ)}
    {inHand : List (Delivery κ (Numbered γ))}
    (hinHand : ledger.inHand = delivery :: inHand) :
    ledger.act .hand =
      { ledger with inHand, handed := ledger.handed ++ [delivery] } := by
  rw [act, hinHand]

theorem Accounted.hand (haccounted : ledger.Accounted) :
    (ledger.act .hand).Accounted := by
  cases hinHand : ledger.inHand with
  | nil => simpa [Ledger.act, hinHand] using haccounted
  | cons delivery inHand =>
      rw [hand_eq hinHand]
      refine ⟨haccounted.armed, ?_, ?_⟩
      · refine List.Perm.trans ?_ haccounted.once
        rw [numbers_eq, numbers_eq, hinHand, List.perm_iff_count]
        intro number
        simp only [List.map_append, List.map_cons, List.map_nil,
          List.count_append, List.count_cons, List.count_nil]
        omega
      · intro place hplace
        rcases mem_places.mp hplace with
          hparked | ⟨later, hlater, rfl⟩ | ⟨done, hdone, rfl⟩ | hwithdrawn
        · exact haccounted.fits place (mem_places.mpr (.inl hparked))
        · have hmem : later ∈ ledger.inHand :=
            hinHand ▸ List.mem_cons_of_mem _ hlater
          exact haccounted.fits (.inHand later)
            (mem_places.mpr (.inr (.inl ⟨later, hmem, rfl⟩)))
        · rcases List.mem_append.mp hdone with hold | hnew
          · exact haccounted.fits (.handed done)
              (mem_places.mpr (.inr (.inr (.inl ⟨done, hold, rfl⟩))))
          · obtain rfl := List.mem_singleton.mp hnew
            have hmem : done ∈ ledger.inHand := hinHand ▸ List.mem_cons_self
            exact haccounted.fits (.inHand done)
              (mem_places.mpr (.inr (.inl ⟨done, hmem, rfl⟩)))
        · exact haccounted.fits place
            (mem_places.mpr (.inr (.inr (.inr hwithdrawn))))

theorem Accounted.act (haccounted : ledger.Accounted) (act : Act κ γ) :
    (ledger.act act).Accounted := by
  cases act with
  | perform event => exact haccounted.take (perform_move _ _ _)
  | hand => exact haccounted.hand

namespace Orderly

theorem cancelled (horderly : ledger.Orderly) (caller : κ) :
    InOrder ledger.openers ledger.calls.length
      (ledger.engine.cancel caller).1.inFlight
      (ledger.handed ++ ledger.inHand) := by
  refine InOrder.of_map_eq horderly ?_ ?_
  · simp [Engine.cancel, Function.comp_def]
  · intro entry hentry
    obtain ⟨old, hold, rfl⟩ := List.mem_map.mp hentry
    exact (horderly.queued old hold).fewer rfl List.filter_sublist

theorem take (horderly : ledger.Orderly) (haccounted : ledger.Accounted)
    (hmove : ledger.engine.Move ledger.now (ledger.numbered event) effect) :
    (ledger.take event effect).Orderly := by
  have hkeyed := haccounted.armed.keyed
  have hlast : (ledger.take event effect).calls.length =
      ledger.calls.length +
      (event.calls (effect.mapContext Numbered.context).resolution?).length :=
    List.length_append
  rw [Orderly, hlast]
  cases event with
  | resolve question caller context flags =>
      cases hmove with
      | aside event started cache counters resolution? found? hstarted
        hresolution hspares =>
          exact horderly.asked hkeyed question caller context flags
            (Nat.le_add_right _ _)
      | joined _ _ _ _ cache entry hstarted hentry =>
          exact horderly.joined hkeyed flags hentry
      | opened _ _ _ _ cache query hstarted hentry hquery =>
          exact horderly.opened hkeyed flags hentry
  | cancel caller =>
      cases hmove with
      | aside event started cache counters resolution? found? hstarted
        hresolution hspares =>
          cases hspares
      | cancelled caller => exact horderly.cancelled caller
  | ended question generation ending =>
      cases hmove with
      | aside event started cache counters resolution? found? hstarted
        hresolution hspares =>
          exact horderly
      | proceeded question generation ending entry hcurrent =>
          exact horderly.proceeded hkeyed (entry?_of_current? hcurrent).1 _
  | stop =>
      cases hmove with
      | aside event started cache counters resolution? found? hstarted
        hresolution hspares =>
          cases hspares
      | stopped => exact horderly.stopped
  | _ =>
      cases hmove
      exact horderly

theorem hand (horderly : ledger.Orderly) : (ledger.act .hand).Orderly := by
  cases hinHand : ledger.inHand with
  | nil => simpa [Ledger.act, hinHand] using horderly
  | cons delivery inHand =>
      rw [hand_eq hinHand, Orderly, List.append_assoc]
      rw [Orderly, hinHand] at horderly
      exact horderly

theorem act (horderly : ledger.Orderly) (haccounted : ledger.Accounted)
    (act : Act κ γ) :
    (ledger.act act).Orderly := by
  cases act with
  | perform event => exact horderly.take haccounted (perform_move _ _ _)
  | hand => exact horderly.hand

end Orderly

end Ledger

def noteCalls (calls : List (Call κ γ)) (step : Step κ γ) : List (Call κ γ) :=
  calls ++ step.event.calls step.effect.resolution?

namespace Ledger

/-- Without the numbers, a ledger's engine is one that knows of none. -/
def Mirrors (ledger : Ledger κ γ) (plain : Watched κ γ (List (Call κ γ))) :
    Prop :=
  ledger.engine.mapContext Numbered.context = plain.engine ∧
    ledger.now = plain.now ∧ ledger.calls = plain.notes

theorem numbered_mapContext (ledger : Ledger κ γ) (event : Event κ γ) :
    (ledger.numbered event).mapContext Numbered.context = event := by
  cases event <;> rfl

theorem Mirrors.act [DecidableEq κ] {ledger : Ledger κ γ}
    {plain : Watched κ γ (List (Call κ γ))} (hmirrors : ledger.Mirrors plain)
    (act : Act κ γ) :
    (ledger.act act).Mirrors
      (act.event?.toList.foldl (Watched.next noteCalls) plain) := by
  obtain ⟨hengine, hnow, hcalls⟩ := hmirrors
  cases act with
  | perform event =>
      have heffect :
          (ledger.engine.perform ledger.now (ledger.numbered event)).mapContext
          Numbered.context = plain.engine.perform plain.now event := by
        rw [← perform_mapContext, hengine, hnow, numbered_mapContext]
      refine ⟨congrArg Effect.engine heffect, ?_, ?_⟩
      · simp [Ledger.act, Ledger.take, Act.event?, Watched.next, hnow]
      · simp [Ledger.act, Ledger.take, Act.event?, Watched.next, noteCalls,
          Watched.step, hcalls, heffect]
  | hand =>
      cases hinHand : ledger.inHand with
      | nil =>
          simp only [Ledger.act, hinHand]
          exact ⟨hengine, hnow, hcalls⟩
      | cons delivery inHand =>
          rw [hand_eq hinHand]
          exact ⟨hengine, hnow, hcalls⟩

section Runs

variable [DecidableEq κ] (settings : Settings) (ids : Nat → UInt16)
  (acts : List (Act κ γ))

theorem run_accounted : (run settings ids acts).Accounted := by
  induction acts using List.reverseRecOn with
  | nil => exact create_accounted settings ids
  | append_singleton acts act ih =>
      rw [run, List.foldl_append]
      exact ih.act act

theorem run_orderly : (run settings ids acts).Orderly := by
  induction acts using List.reverseRecOn with
  | nil => exact InOrder.nil
  | append_singleton acts act ih =>
      rw [run, List.foldl_append]
      exact ih.act (run_accounted settings ids acts) act

theorem run_mirrors :
    (run settings ids acts).Mirrors
      (Watched.run noteCalls [] settings ids (acts.filterMap Act.event?)) := by
  induction acts using List.reverseRecOn with
  | nil => exact ⟨rfl, rfl, rfl⟩
  | append_singleton acts act ih =>
      have hplain :
          Watched.run noteCalls [] settings ids
          ((acts ++ [act]).filterMap Act.event?) =
          act.event?.toList.foldl (Watched.next noteCalls)
            (Watched.run noteCalls [] settings ids
              (acts.filterMap Act.event?)) := by
        simp only [Watched.run, List.filterMap_append, List.foldl_append]
        cases act <;> rfl
      rw [run, List.foldl_append, hplain]
      exact ih.act act

end Runs

end Ledger

/-- In every run, also one in which callers call the engine while they get their
answers: numbering the contexts changes nothing; the request of every call that
was left to wait is in one place only, as a request for its question, as an
answer to its question that is about to be handed or was handed to its caller,
or taken back by its caller; the request of any other call is nowhere; and the
requests of one entry get one answer in the order of their calls. -/
theorem every_request_has_one_place [DecidableEq κ] (settings : Settings)
    (ids : Nat → UInt16) (acts : List (Act κ γ)) :
    let ledger := Ledger.run settings ids acts
    let plain :=
      Watched.run noteCalls [] settings ids (acts.filterMap Act.event?)
    (ledger.engine.mapContext Numbered.context = plain.engine ∧
      ledger.calls = plain.notes) ∧
    (∀ number call, ledger.calls[number]? = some call →
      (call.resolution = .ok .pending →
        ∃ place, ledger.placesOf number = [place] ∧ place.Fits call) ∧
      (call.resolution ≠ .ok .pending → ledger.placesOf number = [])) ∧
    (ledger.handed ++ ledger.inHand).Pairwise InTurn := by
  intro ledger plain
  have haccounted : ledger.Accounted := Ledger.run_accounted settings ids acts
  have horderly : ledger.Orderly := Ledger.run_orderly settings ids acts
  have hmirrors : ledger.Mirrors plain := Ledger.run_mirrors settings ids acts
  refine ⟨⟨hmirrors.1, hmirrors.2.2⟩, ?_, horderly.turns⟩
  intro number call hcall
  exact ⟨Ledger.placesOf_of_pending haccounted hcall,
    Ledger.placesOf_of_not_pending haccounted hcall⟩

end DnsForwarder.Engine
