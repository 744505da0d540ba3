import DnsForwarder.Proofs.Server.Reception

/-! A server at work, beside guests of its engine, and a journal of it. The
journal numbers what the server receives, marks the contexts in the engine with
the numbers, and puts down what becomes of every number. -/

namespace DnsForwarder

variable {κ γ : Type}

def Engine.Event.ofGuest : Engine.Event κ γ → Engine.Event (Party κ) (Parcel γ)
  | .wait ms => .wait ms
  | .start => .start
  | .resolve question caller context flags =>
      .resolve question (.guest caller) (.guest context) flags
  | .lookup question => .lookup question
  | .cancel caller => .cancel (.guest caller)
  | .ended question generation ending => .ended question generation ending
  | .stop => .stop

inductive Turn (κ γ : Type) where
  | receive (inbound : Inbound)
  | perform (event : Engine.Event κ γ)
  | hand

def Turn.inbound? : Turn κ γ → Option Inbound
  | .receive inbound => some inbound
  | _ => none

def Waiter.query? (waiter : Waiter (Party κ) (Parcel γ)) :
    Option QueryContext :=
  match waiter with
  | ⟨.server, .query context⟩ => some context
  | _ => none

structure Service (κ γ : Type) where
  engine : Engine (Party κ) (Parcel γ)
  server : Server
  now : Nat := 0
  inHand : List (Delivery (Party κ) (Parcel γ)) := []

namespace Service

variable [DecidableEq κ]

def turn (service : Service κ γ) : Turn κ γ → Service κ γ
  | .receive inbound =>
      let (engine, server, _) :=
        service.server.dispatch .query service.engine service.now
        inbound.bytes inbound.responder
      { service with engine, server }
  | .perform event =>
      let effect := service.engine.perform service.now event.ofGuest
      { service with
        engine := effect.engine
        now := event.clock service.now
        inHand := effect.deliveries ++ service.inHand }
  | .hand =>
      match service.inHand with
      | [] => service
      | delivery :: inHand =>
          match delivery.waiter.query? with
          | none => { service with inHand }
          | some context =>
              let server :=
                service.server.answerDelivered context delivery.answer
              { service with server, inHand }

def run (settings : Settings) (ids : Nat → UInt16) (server : Server)
    (turns : List (Turn κ γ)) :
    Service κ γ :=
  turns.foldl turn { engine := .create settings ids, server }

omit [DecidableEq κ]

/-- Where a fate is to be seen: requests wait only in the entry of their
question, while there is one, and what is due is in hand. -/
def Shows (service : Service κ γ) : Fate → Prop
  | .waiting question context =>
      ∃ entry, service.engine.entry? question = some entry ∧
        ∃ waiter ∈ entry.waiters, waiter.query? = some context
  | .due answer context =>
      ∃ delivery ∈ service.inHand, delivery.answer = answer ∧
        delivery.waiter.query? = some context
  | .replied reply => reply ∈ service.server.handed
  | .lost _ => True

end Service

def Waiter.numbered? (waiter : Waiter (Party κ) (Nat × Parcel γ)) :
    Option (Nat × QueryContext) :=
  (waiter.mapContext Prod.snd).query?.map fun context =>
    (waiter.context.1, context)

def Request.fate? (request : Request (Party κ) (Nat × Parcel γ)) :
    Option (Nat × Fate) :=
  request.waiter.numbered?.map fun (number, context) =>
    (number, .waiting request.question context)

def Delivery.fate? (delivery : Delivery (Party κ) (Nat × Parcel γ)) :
    Option (Nat × Fate) :=
  delivery.waiter.numbered?.map fun (number, context) =>
    (number, .due delivery.answer context)

structure Journal (κ γ : Type) where
  engine : Engine (Party κ) (Nat × Parcel γ)
  server : Server
  now : Nat := 0
  inbound : List Inbound := []
  inHand : List (Delivery (Party κ) (Nat × Parcel γ)) := []
  closed : List (Nat × Fate) := []

namespace Journal

def close (journal : Journal κ γ) (number : Nat) (server : Server)
    (result : Except Error Unit) : Journal κ γ :=
  { journal with
    server
    closed :=
      journal.closed ++
        (journal.server.closings server result).map (number, ·) }

def take (journal : Journal κ γ) (inbound : Inbound) :
    Engine (Party κ) (Nat × Parcel γ) × Server × Except Error Unit → Journal κ γ
  | (engine, server, result) =>
      { journal with engine, inbound := journal.inbound ++ [inbound] }.close
        journal.inbound.length server result

def box (journal : Journal κ γ) (context : QueryContext) : Nat × Parcel γ :=
  (journal.inbound.length, .query context)

def hand (journal : Journal κ γ) : Journal κ γ :=
  match journal.inHand with
  | [] => journal
  | delivery :: inHand =>
      match delivery.waiter.numbered? with
      | none => { journal with inHand }
      | some (number, context) =>
          let (server, result) :=
            journal.server.conclude context delivery.answer
          { journal with inHand }.close number server result

variable [DecidableEq κ]

def perform (journal : Journal κ γ) (event : Engine.Event κ γ) : Journal κ γ :=
  let number := journal.inbound.length
  let effect :=
    journal.engine.perform journal.now (event.ofGuest.mapContext (number, ·))
  { journal with
    engine := effect.engine
    now := event.clock journal.now
    inHand := effect.deliveries ++ journal.inHand }

def turn (journal : Journal κ γ) : Turn κ γ → Journal κ γ
  | .receive inbound =>
      journal.take inbound
        (journal.server.dispatch journal.box journal.engine journal.now
          inbound.bytes inbound.responder)
  | .perform event => journal.perform event
  | .hand => journal.hand

def run (settings : Settings) (ids : Nat → UInt16) (server : Server)
    (turns : List (Turn κ γ)) :
    Journal κ γ :=
  turns.foldl turn { engine := .create settings ids, server }

omit [DecidableEq κ]

def fates (journal : Journal κ γ) : List (Nat × Fate) :=
  journal.engine.parked.filterMap Request.fate? ++
    journal.inHand.filterMap Delivery.fate? ++ journal.closed

def fatesOf (journal : Journal κ γ) (number : Nat) : List Fate :=
  (journal.fates.filter fun fate => fate.1 == number).map Prod.snd

/-- The numbers that a reply is owed to. -/
def owed (journal : Journal κ γ) : List Nat :=
  journal.inbound.findIdxs Inbound.isOwed

end Journal

theorem Waiter.query?_of_numbered?
    {waiter : Waiter (Party κ) (Nat × Parcel γ)} {number : Nat}
    {context : QueryContext}
    (hnumbered : waiter.numbered? = some (number, context)) :
    (waiter.mapContext Prod.snd).query? = some context := by
  obtain ⟨found, hfound, heq⟩ := Option.map_eq_some_iff.mp hnumbered
  cases heq
  exact hfound

def Request.number? (request : Request (Party κ) (Nat × Parcel γ)) :
    Option Nat :=
  request.waiter.numbered?.map Prod.fst

theorem Request.fate?_eq_some {request : Request (Party κ) (Nat × Parcel γ)}
    {fate : Nat × Fate} :
    request.fate? = some fate ↔ ∃ number context,
      request.waiter.numbered? = some (number, context) ∧
        fate = (number, .waiting request.question context) := by
  rw [Request.fate?, Option.map_eq_some_iff, Prod.exists]
  simp only [eq_comm]

theorem Delivery.fate?_eq_some {delivery : Delivery (Party κ) (Nat × Parcel γ)}
    {fate : Nat × Fate} :
    delivery.fate? = some fate ↔ ∃ number context,
      delivery.waiter.numbered? = some (number, context) ∧
        fate = (number, .due delivery.answer context) := by
  rw [Delivery.fate?, Option.map_eq_some_iff, Prod.exists]
  simp only [eq_comm]

namespace Journal

/-- What is put down as closed is closed, and its replies are those that were
handed out. -/
structure Faithful (first server : Server) (closed : List (Nat × Fate)) :
    Prop where
  handed : server.handed = first.handed ++ closed.filterMap fun closed =>
    closed.2.reply?
  isFinal : ∀ entry ∈ closed, entry.2.isFinal = true

/-- Every number that a reply is owed to has one fate, and it is one that the
bytes can meet; other numbers have none. -/
structure Accounted (first : Server) (journal : Journal κ γ) : Prop where
  armed : journal.engine.Armed
  alike : first.Alike journal.server
  once : (journal.fates.map Prod.fst).Perm journal.owed
  meets : ∀ fate ∈ journal.fates, ∃ inbound,
    journal.inbound[fate.1]? = some inbound ∧ inbound.Meets first fate.2
  faithful : Faithful first journal.server journal.closed

variable {first : Server} {journal : Journal κ γ}

theorem numbers_eq (journal : Journal κ γ) :
    journal.fates.map Prod.fst =
      journal.engine.parked.filterMap Request.number? ++
        (journal.inHand.map Delivery.request).filterMap Request.number? ++
          journal.closed.map Prod.fst := by
  simp [fates, List.map_filterMap, List.filterMap_map, Function.comp_def,
    Request.fate?, Delivery.fate?, Request.number?, Delivery.request]
  rfl

theorem mem_fates {fate : Nat × Fate} :
    fate ∈ journal.fates ↔
      (∃ request ∈ journal.engine.parked, request.fate? = some fate) ∨
      (∃ delivery ∈ journal.inHand, delivery.fate? = some fate) ∨
      fate ∈ journal.closed := by
  simp [fates, List.mem_filterMap]

theorem close_eq (journal : Journal κ γ) (number : Nat) {server : Server}
    {result : Except Error Unit} {fate : Fate}
    (hcloses : journal.server.Closes server result fate) :
    journal.close number server result =
      { journal with
        server, closed := journal.closed ++ [(number, fate)] } := by
  rw [close, hcloses.closings_eq]
  rfl

theorem create_accounted (settings : Settings) (ids : Nat → UInt16)
    (first : Server) :
    ({ engine := .create settings ids, server := first } :
      Journal κ γ).Accounted first where
  armed := Engine.create_armed settings ids
  alike := ⟨rfl, rfl⟩
  once := .refl _
  meets := by simp [fates, Engine.parked, Engine.create]
  faithful := ⟨(List.append_nil _).symm, by simp⟩

theorem Accounted.received (haccounted : journal.Accounted first)
    {inbound : Inbound} {after : Journal κ γ}
    (hinbound : after.inbound = journal.inbound ++ [inbound])
    (harmed : after.engine.Armed) (halike : first.Alike after.server)
    (fate? : Option Fate) (howed : fate?.isSome = inbound.isOwed)
    (hfates : after.fates.Perm
      (journal.fates ++ fate?.toList.map (journal.inbound.length, ·)))
    (hmeets : ∀ fate ∈ fate?, inbound.Meets first fate)
    (hfaithful : Faithful first after.server after.closed) :
    after.Accounted first := by
  refine ⟨harmed, halike, ?_, ?_, hfaithful⟩
  · have hnumbers := hfates.map Prod.fst
    rw [List.map_append] at hnumbers
    refine hnumbers.trans ?_
    rw [owed, hinbound, List.findIdxs_append, Nat.zero_add]
    refine haccounted.once.append (.of_eq ?_)
    cases fate? with
    | none => simp [← howed]
    | some fate => simp [← howed]
  · intro fate hfate
    rw [hinbound]
    rcases List.mem_append.mp (hfates.mem_iff.mp hfate) with hold | hnew
    · obtain ⟨other, hother, hmeets⟩ := haccounted.meets fate hold
      obtain ⟨hlt, -⟩ := List.getElem?_eq_some_iff.mp hother
      exact ⟨other, by rw [List.getElem?_append_left hlt, hother], hmeets⟩
    · obtain ⟨found, hfound, rfl⟩ := List.mem_map.mp hnew
      refine ⟨inbound, by simp, hmeets found ?_⟩
      simpa using hfound

theorem Faithful.close {before after : Server} {result : Except Error Unit}
    {fate : Fate} {closed : List (Nat × Fate)}
    (hfaithful : Faithful first before closed)
    (hcloses : before.Closes after result fate) (number : Nat) :
    Faithful first after (closed ++ [(number, fate)]) where
  handed := by
    rw [hcloses.handed_eq, hfaithful.handed, List.filterMap_append,
      List.append_assoc]
    cases hreply : fate.reply? <;> simp [hreply]
  isFinal entry hentry := by
    rcases List.mem_append.mp hentry with hold | hnew
    · exact hfaithful.isFinal entry hold
    · obtain rfl := List.mem_singleton.mp hnew
      exact hcloses.isFinal

theorem take_of_open {inbound : Inbound}
    {engine : Engine (Party κ) (Nat × Parcel γ)} {server : Server}
    (hhanded : server.handed = journal.server.handed) :
    journal.take inbound (engine, server, .ok ()) =
      { journal with
        engine, server, inbound := journal.inbound ++ [inbound] } := by
  have hnone : journal.server.closings server (.ok ()) = [] :=
    Server.closings_ok hhanded
  simp [Journal.take, close, hnone]

theorem Accounted.take_ignored (haccounted : journal.Accounted first)
    {inbound : Inbound} (howed : inbound.isOwed = false) :
    (journal.take inbound (journal.engine, journal.server, .ok ())).Accounted
      first := by
  have hfates :
      ({ journal with inbound := journal.inbound ++ [inbound] } :
        Journal κ γ).fates = journal.fates := rfl
  rw [take_of_open rfl]
  refine haccounted.received rfl haccounted.armed haccounted.alike none ?_ ?_ ?_
    haccounted.faithful
  · rw [howed]
    rfl
  · rw [hfates]
    exact .of_eq (List.append_nil _).symm
  · intro fate hfate
    cases hfate

theorem Accounted.take_closed (haccounted : journal.Accounted first)
    {inbound : Inbound} {engine : Engine (Party κ) (Nat × Parcel γ)}
    {server : Server} {result : Except Error Unit} {fate : Fate}
    (howed : inbound.isOwed = true) (harmed : engine.Armed)
    (hparked : engine.parked.Perm journal.engine.parked)
    (halike : journal.server.Alike server)
    (hmeets : inbound.Meets journal.server fate)
    (hcloses : journal.server.Closes server result fate) :
    (journal.take inbound (engine, server, result)).Accounted first := by
  have htake : journal.take inbound (engine, server, result) =
      { journal with
        engine, server
        inbound := journal.inbound ++ [inbound]
        closed := journal.closed ++ [(journal.inbound.length, fate)] } :=
    close_eq _ _ hcloses
  rw [htake]
  refine haccounted.received rfl harmed (haccounted.alike.trans halike)
    (some fate) ?_ ?_ ?_ (haccounted.faithful.close hcloses _)
  · rw [howed]
    rfl
  · have hwaiting := hparked.filterMap Request.fate?
    simp only [fates, List.append_assoc]
    exact hwaiting.append_right _
  · intro found hfound
    cases hfound
    exact hmeets.alike haccounted.alike

theorem Accounted.take_parked (haccounted : journal.Accounted first)
    {inbound : Inbound} {engine : Engine (Party κ) (Nat × Parcel γ)}
    {pool : ContextPool} {question : Question} {context : QueryContext}
    (howed : inbound.isOwed = true) (harmed : engine.Armed)
    (hparked : engine.parked.Perm
      (journal.engine.parked ++ [⟨question, ⟨.server, journal.box context⟩⟩]))
    (hasks : inbound.Asks journal.server question context) :
    (journal.take inbound
      (engine, { journal.server with pool }, .ok ())).Accounted first := by
  rw [take_of_open (by rfl)]
  refine haccounted.received rfl harmed (haccounted.alike.trans ⟨rfl, rfl⟩)
    (some (.waiting question context)) ?_ ?_ ?_
    ⟨haccounted.faithful.handed, haccounted.faithful.isFinal⟩
  · rw [howed]
    rfl
  -- The new request is somewhere in the engine, and at the end of what is put
  -- down.
  · have hwaiting := hparked.filterMap Request.fate?
    rw [List.filterMap_append, List.perm_iff_count] at hwaiting
    rw [List.perm_iff_count]
    intro fate
    have hcount := hwaiting fate
    have hfresh : ([⟨question, ⟨.server, journal.box context⟩⟩] :
        List (Request (Party κ) (Nat × Parcel γ))).filterMap Request.fate? =
        [(journal.inbound.length, .waiting question context)] := rfl
    simp only [hfresh, fates, List.count_append, Option.toList_some,
      List.map_cons, List.map_nil] at hcount ⊢
    omega
  · intro found hfound
    cases hfound
    exact .waiting (hasks.alike haccounted.alike)

theorem Accounted.take (haccounted : journal.Accounted first)
    {inbound : Inbound}
    {outcome : Engine (Party κ) (Nat × Parcel γ) × Server × Except Error Unit}
    (hreception : Server.Reception journal.box journal.engine journal.server
      inbound outcome) :
    (journal.take inbound outcome).Accounted first := by
  cases hreception with
  | ignored howed => exact haccounted.take_ignored howed
  | closed howed harmed hparked halike hmeets hcloses =>
      exact haccounted.take_closed howed harmed hparked halike hmeets hcloses
  | parked howed harmed hparked hasks =>
      exact haccounted.take_parked howed harmed hparked hasks

theorem Accounted.asks (haccounted : journal.Accounted first)
    {request : Request (Party κ) (Nat × Parcel γ)}
    (hrequest : request ∈ journal.engine.parked) {number : Nat}
    {context : QueryContext}
    (hnumbered : request.waiter.numbered? = some (number, context)) :
    ∃ inbound, journal.inbound[number]? = some inbound ∧
      inbound.Asks first request.question context := by
  have hfate :
      request.fate? = some (number, .waiting request.question context) :=
    Request.fate?_eq_some.mpr ⟨number, context, hnumbered, rfl⟩
  obtain ⟨inbound, hinbound, hmeets⟩ :=
    haccounted.meets _ (mem_fates.mpr (.inl ⟨request, hrequest, hfate⟩))
  cases hmeets with
  | waiting hasks => exact ⟨inbound, hinbound, hasks⟩

theorem Accounted.hand_eq (haccounted : journal.Accounted first)
    {delivery : Delivery (Party κ) (Nat × Parcel γ)}
    {inHand : List (Delivery (Party κ) (Nat × Parcel γ))}
    (hinHand : journal.inHand = delivery :: inHand) {number : Nat}
    {answer : Answer} {context : QueryContext}
    (hfate : delivery.fate? = some (number, .due answer context)) :
    ∃ inbound server result,
      let fate := first.closing inbound.responder context answer
      journal.inbound[number]? = some inbound ∧ inbound.Meets first fate ∧
        journal.server.Alike server ∧ journal.server.Closes server result fate ∧
          journal.hand =
            { journal with
              inHand
              server
              closed := journal.closed ++ [(number, fate)] } := by
  have hmem : delivery ∈ journal.inHand := hinHand ▸ List.mem_cons_self
  obtain ⟨inbound, hinbound, hmeets⟩ :=
    haccounted.meets _ (mem_fates.mpr (.inr (.inl ⟨delivery, hmem, hfate⟩)))
  obtain ⟨number', context', hnumbered, heq⟩ := Delivery.fate?_eq_some.mp hfate
  cases heq
  cases hmeets with
  | due hasks =>
      obtain ⟨halike, hcloses, hmeets⟩ := hasks.conclude haccounted.alike
      refine ⟨inbound, _, _, hinbound, hmeets, halike, hcloses, ?_⟩
      simp only [Journal.hand, hinHand, hnumbered]
      exact close_eq { journal with inHand } number hcloses

theorem Accounted.hand (haccounted : journal.Accounted first) :
    journal.hand.Accounted first := by
  cases hinHand : journal.inHand with
  | nil =>
      have hhand : journal.hand = journal := by
        simp only [Journal.hand, hinHand]
      rw [hhand]
      exact haccounted
  | cons delivery inHand =>
      cases hnumbered : delivery.waiter.numbered? with
      | none =>
          have hfate : delivery.fate? = none := by
            rw [Delivery.fate?, hnumbered]
            rfl
          have hhand : journal.hand = { journal with inHand } := by
            simp only [Journal.hand, hinHand, hnumbered]
          have hfates : ({ journal with inHand } : Journal κ γ).fates =
              journal.fates := by
            simp [fates, hinHand, hfate]
          rw [hhand]
          exact ⟨haccounted.armed, haccounted.alike, hfates ▸ haccounted.once,
            hfates ▸ haccounted.meets, haccounted.faithful⟩
      | some numbered =>
          obtain ⟨number, context⟩ := numbered
          have hfate :
              delivery.fate? = some (number, .due delivery.answer context) :=
            Delivery.fate?_eq_some.mpr ⟨number, context, hnumbered, rfl⟩
          obtain ⟨inbound, server, result, hinbound, hmeets, halike,
            hcloses, hhand⟩ :=
            haccounted.hand_eq hinHand hfate
          rw [hhand]
          refine ⟨haccounted.armed, haccounted.alike.trans halike, ?_, ?_,
            haccounted.faithful.close hcloses number⟩
          · refine List.Perm.trans ?_ haccounted.once
            rw [List.perm_iff_count]
            intro other
            simp only [fates, hinHand, List.filterMap_cons_some hfate,
              List.map_append,
              List.map_cons, List.map_nil, List.count_append, List.count_cons,
              List.count_nil]
            omega
          · intro closed hclosed
            rcases mem_fates.mp hclosed with
              hparked | ⟨later, hlater, hfate⟩ | hdone
            · exact haccounted.meets closed (mem_fates.mpr (.inl hparked))
            · have hmem : later ∈ journal.inHand :=
                hinHand ▸ List.mem_cons_of_mem _ hlater
              exact haccounted.meets closed
                (mem_fates.mpr (.inr (.inl ⟨later, hmem, hfate⟩)))
            · rcases List.mem_append.mp hdone with hold | hnew
              · exact haccounted.meets closed (mem_fates.mpr (.inr (.inr hold)))
              · obtain rfl := List.mem_singleton.mp hnew
                exact ⟨inbound, hinbound, hmeets⟩

theorem numbered?_of_guest {waiter : Waiter (Party κ) (Nat × Parcel γ)}
    {caller : κ} (hcaller : waiter.caller = .guest caller) :
    waiter.numbered? = none := by
  obtain ⟨party, context⟩ := waiter
  cases hcaller
  rfl

theorem admitted_unnumbered (event : Engine.Event κ γ) (number : Nat)
    (resolution? : Option (Except Error (Resolution (Nat × Parcel γ)))) :
    ((event.ofGuest.mapContext (number, ·)).admitted resolution?).filterMap
      Request.number? =
      [] := by
  rw [List.filterMap_eq_nil_iff]
  intro request hrequest
  unfold Engine.Event.admitted at hrequest
  split at hrequest
  next hevent =>
    cases event <;> cases hevent
    obtain rfl := List.mem_singleton.mp hrequest
    rfl
  next => cases hrequest

theorem Accounted.fatesOf_of_mem (haccounted : journal.Accounted first)
    {number : Nat} {fate : Fate} (hmem : (number, fate) ∈ journal.fates) :
    journal.fatesOf number = [fate] := by
  have howed : number ∈ journal.owed :=
    haccounted.once.mem_iff.mp (List.mem_map_of_mem hmem)
  obtain ⟨found, -, -, hsole⟩ :=
    filter_number_of_mem haccounted.once List.nodup_findIdxs howed
  have hfound : (number, fate) ∈ journal.fates.filter fun fate =>
    fate.1 == number :=
    List.mem_filter.mpr ⟨hmem, beq_self_eq_true number⟩
  rw [hsole] at hfound
  rw [fatesOf, hsole, ← List.mem_singleton.mp hfound]
  rfl

theorem Accounted.fatesOf_of_owed (haccounted : journal.Accounted first)
    {number : Nat} {inbound : Inbound}
    (hinbound : journal.inbound[number]? = some inbound)
    (howed : inbound.isOwed = true) :
    ∃ fate, journal.fatesOf number = [fate] ∧ inbound.Meets first fate := by
  have hmem : number ∈ journal.owed :=
    mem_findIdxs.mpr ⟨inbound, hinbound, howed⟩
  obtain ⟨⟨_, fate⟩, hfate, rfl⟩ :=
    List.mem_map.mp (haccounted.once.mem_iff.mpr hmem)
  obtain ⟨other, hother, hmeets⟩ := haccounted.meets _ hfate
  have hsame : other = inbound := by
    rw [hinbound] at hother
    exact (Option.some.inj hother).symm
  exact ⟨fate, haccounted.fatesOf_of_mem hfate, hsame ▸ hmeets⟩

theorem Accounted.fatesOf_of_not_owed (haccounted : journal.Accounted first)
    {number : Nat} {inbound : Inbound}
    (hinbound : journal.inbound[number]? = some inbound)
    (howed : inbound.isOwed = false) : journal.fatesOf number = [] := by
  have hnone : number ∉ journal.owed := by
    intro hmem
    obtain ⟨other, hother, hmust⟩ := mem_findIdxs.mp hmem
    rw [hinbound] at hother
    cases hother
    rw [howed] at hmust
    cases hmust
  rw [fatesOf, filter_number_of_not_mem haccounted.once hnone]
  rfl

/-- Without the numbers, a journal is a service that keeps none. -/
structure Mirrors (journal : Journal κ γ) (service : Service κ γ) : Prop where
  engine : journal.engine.mapContext Prod.snd = service.engine
  server : journal.server = service.server
  now : journal.now = service.now
  inHand : journal.inHand.map (.mapContext Prod.snd) = service.inHand

theorem ofGuest_mapContext (event : Engine.Event κ γ) (number : Nat) :
    (event.ofGuest.mapContext (number, ·)).mapContext Prod.snd =
      event.ofGuest := by
  cases event <;> rfl

theorem Accounted.fatesOf_hand (haccounted : journal.Accounted first)
    {delivery : Delivery (Party κ) (Nat × Parcel γ)}
    {inHand : List (Delivery (Party κ) (Nat × Parcel γ))}
    (hinHand : journal.inHand = delivery :: inHand) {number : Nat}
    {inbound : Inbound} (hinbound : journal.inbound[number]? = some inbound)
    {answer : Answer} {context : QueryContext}
    (hfate : delivery.fate? = some (number, .due answer context)) :
    journal.hand.fatesOf number =
      [first.closing inbound.responder context answer] := by
  obtain ⟨found, server, result, hfound, -, -, -, hhand⟩ :=
    haccounted.hand_eq hinHand hfate
  have hsame : found = inbound := by
    rw [hinbound] at hfound
    exact (Option.some.inj hfound).symm
  refine haccounted.hand.fatesOf_of_mem (mem_fates.mpr (.inr (.inr ?_)))
  rw [hhand, hsame]
  exact List.mem_append_right _ (List.mem_singleton_self _)

theorem Accounted.shows (haccounted : journal.Accounted first)
    {service : Service κ γ} (hmirrors : journal.Mirrors service)
    {number : Nat} {fate : Fate} (hfate : fate ∈ journal.fatesOf number) :
    service.Shows fate := by
  obtain ⟨entry, hmem, rfl⟩ := List.mem_map.mp hfate
  rcases mem_fates.mp (List.mem_filter.mp hmem).1 with
    ⟨request, hrequest, hfate⟩ | ⟨delivery, hdelivery, hfate⟩ | hclosed
  · obtain ⟨number, context, hnumbered, rfl⟩ := Request.fate?_eq_some.mp hfate
    obtain ⟨inFlight, hinFlight, hwaiting⟩ := List.mem_flatMap.mp hrequest
    obtain ⟨waiter, hwaiter, rfl⟩ := List.mem_map.mp hwaiting
    have hentry := haccounted.armed.keyed.entry?_of_mem hinFlight
    refine ⟨inFlight.mapContext Prod.snd, ?_, waiter.mapContext Prod.snd,
      List.mem_map_of_mem hwaiter, Waiter.query?_of_numbered? hnumbered⟩
    rw [← hmirrors.engine, Engine.entry?_mapContext, hentry]
    rfl
  · obtain ⟨number, context, hnumbered, rfl⟩ := Delivery.fate?_eq_some.mp hfate
    refine ⟨delivery.mapContext Prod.snd, ?_, rfl,
      Waiter.query?_of_numbered? hnumbered⟩
    rw [← hmirrors.inHand]
    exact List.mem_map_of_mem hdelivery
  · have hfinal := haccounted.faithful.isFinal entry hclosed
    cases hcase : entry.2 with
    | waiting question context =>
        rw [hcase] at hfinal
        cases hfinal
    | due answer context =>
        rw [hcase] at hfinal
        cases hfinal
    | replied reply =>
        have hreply : entry.2.reply? = some reply := by
          rw [hcase]
          rfl
        rw [Service.Shows, ← hmirrors.server, haccounted.faithful.handed]
        exact List.mem_append_right _
          (List.mem_filterMap.mpr ⟨entry, hclosed, hreply⟩)
    | lost error => trivial

variable [DecidableEq κ]

theorem taken_unnumbered (engine : Engine (Party κ) (Nat × Parcel γ))
    (event : Engine.Event κ γ) (number : Nat) :
    (engine.taken (event.ofGuest.mapContext (number, ·))).filterMap
      Request.number? = [] := by
  rw [List.filterMap_eq_nil_iff]
  intro request hrequest
  cases event with
  | cancel caller =>
      have hcaller : request.waiter.caller = .guest caller := by
        simpa using (List.mem_filter.mp hrequest).2
      rw [Request.number?, numbered?_of_guest hcaller]
      rfl
  | _ => cases hrequest

theorem Accounted.perform (haccounted : journal.Accounted first)
    (event : Engine.Event κ γ) :
    (journal.perform event).Accounted first := by
  have hmove := journal.engine.perform_move journal.now
    (event.ofGuest.mapContext (journal.inbound.length, ·))
  have hperm := hmove.parked_perm haccounted.armed.keyed
  have harmed := haccounted.armed.move hmove
  simp only [Journal.perform]
  generalize journal.engine.perform journal.now
    (event.ofGuest.mapContext (journal.inbound.length, ·)) =
    effect at hperm harmed ⊢
  have hnumbers := hperm.filterMap Request.number?
  simp only [List.filterMap_append, admitted_unnumbered, taken_unnumbered,
    List.append_nil] at hnumbers
  -- What waits afterwards or gets an answer waited before.
  have hasks {request : Request (Party κ) (Nat × Parcel γ)}
      (hrequest : request ∈ effect.engine.parked ++
        journal.engine.taken
          (event.ofGuest.mapContext (journal.inbound.length, ·)) ++
        effect.deliveries.map Delivery.request)
      {number : Nat} {context : QueryContext}
      (hnumbered : request.waiter.numbered? = some (number, context)) :
      ∃ inbound, journal.inbound[number]? = some inbound ∧
        inbound.Asks first request.question context := by
    rcases List.mem_append.mp (hperm.mem_iff.mpr hrequest) with
      hparked | hadmitted
    · exact haccounted.asks hparked hnumbered
    · have hnone :=
        List.filterMap_eq_nil_iff.mp (admitted_unnumbered event _ _)
          request hadmitted
      rw [Request.number?, hnumbered] at hnone
      cases hnone
  refine ⟨harmed, haccounted.alike, ?_, ?_, haccounted.faithful⟩
  · refine List.Perm.trans ?_ haccounted.once
    rw [numbers_eq, numbers_eq]
    rw [List.perm_iff_count] at hnumbers ⊢
    intro number
    have hcount := hnumbers number
    simp only [List.map_append, List.filterMap_append, List.count_append]
      at hcount ⊢
    omega
  · intro fate hfate
    rcases mem_fates.mp hfate with
      ⟨request, hrequest, hfate⟩ | ⟨delivery, hdelivery, hfate⟩ | hdone
    · obtain ⟨number, context, hnumbered, rfl⟩ := Request.fate?_eq_some.mp hfate
      obtain ⟨inbound, hinbound, hasks⟩ :=
        hasks (List.mem_append_left _ (List.mem_append_left _ hrequest))
          hnumbered
      exact ⟨inbound, hinbound, .waiting hasks⟩
    · rcases List.mem_append.mp hdelivery with hnew | hold
      · obtain ⟨number, context, hnumbered, rfl⟩ :=
          Delivery.fate?_eq_some.mp hfate
        obtain ⟨inbound, hinbound, hasks⟩ :=
          hasks (List.mem_append_right _ (List.mem_map_of_mem hnew)) hnumbered
        exact ⟨inbound, hinbound, .due hasks⟩
      · exact haccounted.meets fate
          (mem_fates.mpr (.inr (.inl ⟨delivery, hold, hfate⟩)))
    · exact haccounted.meets fate (mem_fates.mpr (.inr (.inr hdone)))

theorem Accounted.turn (haccounted : journal.Accounted first)
    (turn : Turn κ γ) :
    (journal.turn turn).Accounted first := by
  cases turn with
  | receive inbound =>
      exact haccounted.take
        (Server.dispatch_reception journal.box haccounted.armed _ _ inbound)
  | perform event => exact haccounted.perform event
  | hand => exact haccounted.hand

theorem Mirrors.turn {service : Service κ γ}
    (hmirrors : journal.Mirrors service) (turn : Turn κ γ) :
    (journal.turn turn).Mirrors (service.turn turn) := by
  obtain ⟨hengine, hserver, hnow, hinHand⟩ := hmirrors
  cases turn with
  | receive inbound =>
      have hdispatch :=
        Server.dispatch_mapContext Prod.snd journal.box journal.engine
        journal.server journal.now inbound
      have hbox : Prod.snd ∘ journal.box = Parcel.query := rfl
      rw [hbox, hengine, hserver, hnow] at hdispatch
      simp only [Journal.turn, Service.turn, hdispatch, hserver, hnow]
      exact ⟨rfl, rfl, hnow, hinHand⟩
  | perform event =>
      have heffect :=
        Engine.perform_mapContext Prod.snd journal.engine journal.now
        (event.ofGuest.mapContext (journal.inbound.length, ·))
      rw [ofGuest_mapContext, hengine, hnow] at heffect
      simp only [Journal.turn, Journal.perform, Service.turn, heffect, hnow]
      refine ⟨rfl, hserver, rfl, ?_⟩
      rw [List.map_append, hinHand]
      rfl
  | hand =>
      cases hcase : journal.inHand with
      | nil =>
          have hservice : service.inHand = [] := by
            rw [← hinHand, hcase]
            rfl
          simp only [Journal.turn, Journal.hand, Service.turn, hcase, hservice]
          exact ⟨hengine, hserver, hnow, hinHand⟩
      | cons delivery inHand =>
          have hservice : service.inHand =
              delivery.mapContext Prod.snd ::
              inHand.map (.mapContext Prod.snd) := by
            rw [← hinHand, hcase]
            rfl
          simp only [Journal.turn, Journal.hand, Service.turn, hcase, hservice]
          have hwaiter : (delivery.mapContext Prod.snd).waiter =
              delivery.waiter.mapContext Prod.snd := rfl
          rw [Waiter.numbered?, hwaiter]
          cases (delivery.waiter.mapContext Prod.snd).query? with
          | none => exact ⟨hengine, hserver, hnow, rfl⟩
          | some context =>
              simp only [Option.map_some]
              refine ⟨hengine, ?_, hnow, rfl⟩
              rw [← hserver]
              rfl

theorem turn_inbound (journal : Journal κ γ) (turn : Turn κ γ) :
    (journal.turn turn).inbound = journal.inbound ++ turn.inbound?.toList := by
  cases turn with
  | receive inbound => rfl
  | perform event => exact (List.append_nil _).symm
  | hand =>
      refine Eq.trans ?_ (List.append_nil _).symm
      simp only [Journal.turn, Journal.hand]
      split
      next => rfl
      next => split <;> rfl

theorem run_accounted (settings : Settings) (ids : Nat → UInt16)
    (server : Server) (turns : List (Turn κ γ)) :
    (run settings ids server turns).Accounted server := by
  induction turns using List.reverseRecOn with
  | nil => exact create_accounted settings ids server
  | append_singleton turns turn ih =>
      rw [run, List.foldl_append]
      exact ih.turn turn

theorem run_mirrors (settings : Settings) (ids : Nat → UInt16)
    (server : Server) (turns : List (Turn κ γ)) :
    (run settings ids server turns).Mirrors
      (Service.run settings ids server turns) := by
  induction turns using List.reverseRecOn with
  | nil => exact ⟨rfl, rfl, rfl, rfl⟩
  | append_singleton turns turn ih =>
      rw [run, Service.run, List.foldl_append, List.foldl_append]
      exact ih.turn turn

theorem run_inbound (settings : Settings) (ids : Nat → UInt16)
    (server : Server) (turns : List (Turn κ γ)) :
    (run settings ids server turns).inbound =
      turns.filterMap Turn.inbound? := by
  induction turns using List.reverseRecOn with
  | nil => rfl
  | append_singleton turns turn ih =>
      have hlast : (run settings ids server (turns ++ [turn])).inbound =
          ((run settings ids server turns).turn turn).inbound := by
        rw [run, List.foldl_append]
        rfl
      rw [hlast, turn_inbound, ih, List.filterMap_append]
      cases turn <;> rfl

end Journal

/-- In every run of a server, the numbers of a journal change nothing, and the
replies that were handed out are those it puts down. A request has one fate at
any time: it waits in the entry of its question, its answer is in hand, one
reply was handed out, with its id and to where it came from, or it got an answer
that cannot be written, because some record has a name that cannot be read or a
string that is too long. An answer that is handed to the server is replied to
just when it can be written. Bytes that are no message but have an id are
replied to at once and once; responses and shorter bytes never are. -/
theorem Service.every_request_meets_one_fate [DecidableEq κ]
    (settings : Settings) (ids : Nat → UInt16) (server : Server)
    (turns : List (Turn κ γ)) :
    let service := Service.run settings ids server turns
    let journal := Journal.run settings ids server turns
    journal.Mirrors service ∧ journal.inbound = turns.filterMap Turn.inbound? ∧
    service.server.handed =
      server.handed ++ journal.closed.filterMap (fun closed =>
        closed.2.reply?) ∧
    ∀ number inbound, journal.inbound[number]? = some inbound →
      (∀ request, Message.decode? inbound.bytes = some request →
        request.header.isResponse = false →
          ∃ fate, journal.fatesOf number = [fate] ∧ service.Shows fate ∧
            inbound.Meets server fate ∧
            ∀ reply, fate = .replied reply →
              reply.responder = inbound.responder ∧
                Server.idOf? reply.bytes = some request.header.id) ∧
      (∀ delivery inHand answer context, journal.inHand = delivery :: inHand →
        delivery.fate? = some (number, .due answer context) →
          (journal.turn .hand).fatesOf number =
            [server.closing inbound.responder context answer]) ∧
      (∀ request, Message.decode? inbound.bytes = some request →
        request.header.isResponse = true → journal.fatesOf number = []) ∧
      (∀ id, Message.decode? inbound.bytes = none →
        Server.idOf? inbound.bytes = some id →
        journal.fatesOf number =
        [.replied ⟨inbound.responder, malformedReply id⟩]) ∧
      (Message.decode? inbound.bytes = none →
        Server.idOf? inbound.bytes = none → journal.fatesOf number = []) := by
  intro service journal
  have haccounted := Journal.run_accounted settings ids server turns
  have hmirrors := Journal.run_mirrors settings ids server turns
  refine ⟨hmirrors, Journal.run_inbound settings ids server turns,
    hmirrors.server ▸ haccounted.faithful.handed, ?_⟩
  intro number inbound hnumber
  refine ⟨?_, ?_, ?_, ?_, ?_⟩
  · intro request hdecode hquery
    have howed : inbound.isOwed = true := by
      simp [Inbound.isOwed, hdecode, hquery]
    obtain ⟨fate, hfates, hmeets⟩ := haccounted.fatesOf_of_owed hnumber howed
    have hmem : fate ∈ journal.fatesOf number :=
      hfates ▸ List.mem_singleton_self fate
    refine ⟨fate, hfates, haccounted.shows hmirrors hmem, hmeets, ?_⟩
    rintro reply rfl
    rw [← Message.decode?_id hdecode]
    exact hmeets.reply
  · intro delivery inHand answer context hinHand hfate
    exact haccounted.fatesOf_hand hinHand hnumber hfate
  · intro request hdecode hresponse
    exact haccounted.fatesOf_of_not_owed hnumber
      (by simp [Inbound.isOwed, hdecode, hresponse])
  · intro id hdecode hid
    have howed : inbound.isOwed = true := by
      simp [Inbound.isOwed, hdecode, hid]
    obtain ⟨fate, hfates, hmeets⟩ := haccounted.fatesOf_of_owed hnumber howed
    rw [hfates, hmeets.malformed_eq hdecode hid]
  · intro hdecode hid
    exact haccounted.fatesOf_of_not_owed hnumber
      (by simp [Inbound.isOwed, hdecode, hid])

/-- A query for the addresses of `example.com`. -/
def exampleQuery : Inbound where
  bytes :=
    [ 0, 7, 1, 0, 0, 1, 0, 0, 0, 0, 0, 0
    , 7, 0x65, 0x78, 0x61, 0x6d, 0x70, 0x6c, 0x65, 3, 0x63, 0x6f, 0x6d, 0,
      0, 1, 0, 1 ]
  responder := ⟨.v4 ⟨192, 0, 2, 7⟩ 5353, .tcp, 0⟩

/-- A response to it with an alias for `0/25.example.com`, as names of delegated
networks are written. -/
def slashResponse : Octets :=
  [ 0, 0, 0x81, 0x80, 0, 1, 0, 1, 0, 0, 0, 0
  , 7, 0x65, 0x78, 0x61, 0x6d, 0x70, 0x6c, 0x65, 3, 0x63, 0x6f, 0x6d,
    0, 0, 1, 0, 1
  , 0xc0, 12, 0, 5, 0, 1, 0, 0, 1, 0x2c, 0, 18
  , 4, 0x30, 0x2f, 0x32, 0x35, 7, 0x65, 0x78, 0x61, 0x6d, 0x70, 0x6c, 0x65, 3,
    0x63, 0x6f, 0x6d, 0 ]

/-- The query comes in, its question is asked, and the response to it is handed
out. -/
def slashTurns : List (Turn Unit Unit) :=
  [ .perform .start
  , .receive exampleQuery
  , .perform (.ended ⟨.a, .name "example.com"⟩ 1 (.result (.ok slashResponse)))
  , .hand ]

/-- The answer is accepted and kept, nothing waits any more, and no reply was
handed out. -/
theorem Service.slash_leaves_query_unanswered :
    let settings := Settings.withServer (.v4 ⟨192, 0, 2, 1⟩ 53)
    let server : Server := ⟨.create 4, true, 1232, [], true, 0, [], []⟩
    let service := Service.run settings (fun _ => 0) server slashTurns
    (Message.decode? exampleQuery.bytes).map (fun request =>
      request.header.isResponse) = some false ∧
      service.engine.cache.size = 1 ∧ service.engine.inFlight.length = 0 ∧
      service.inHand.length = 0 ∧ service.server.handed = [] ∧
      (Journal.run settings (fun _ => 0) server slashTurns).fatesOf 0 =
        [.lost (.invalidName (.unencodable "0\\/25.example.com"))] := by
  decide +kernel

end DnsForwarder
