import DnsForwarder.Proofs.Client.Adapter

/-! Requests of a client between threads and the engine. Threads make requests
and shut the client down while the reactor serves it, and their steps mix in any
way. Each future that was given out is resolved, or has its request on the
bridge, or waits under a token that one request to the engine carries. -/

namespace DnsForwarder

def Engine.Event.isBy {κ γ : Type} [DecidableEq κ] (caller : κ) :
    Event κ γ → Bool
  | .resolve _ other _ _ => other = caller
  | .cancel other => other = caller
  | _ => false

inductive Retreat where
  | serving
  /-- The shutdown has been announced. -/
  | announced
  | closed
  | gone
  deriving DecidableEq

/-- A client and its engine, with the calls of threads that are between two of
their parts. -/
structure Correspondence (τ κ : Type) where
  client : Client κ
  engine : Engine κ Nat
  now : Nat := 0
  /-- Requests that have seen no shutdown and not come to the bridge yet. -/
  asking : List (τ × Question × Flags) := []
  /-- Threads that have ended the bridge and not announced the shutdown yet. -/
  closing : List τ := []
  /-- Answers that the engine has given out and their callers not taken yet. -/
  transit : List (Delivery κ Nat) := []
  /-- The questions of the futures. -/
  asked : List Question := []
  retreat : Retreat := .serving

inductive Correspondence.Action (τ κ : Type) where
  /-- The first part of a request looks for a shutdown. -/
  | ask (thread : τ) (question : Question) (flags : Flags)
  /-- The second part brings it to the bridge. -/
  | send (thread : τ)
  /-- The first part of a shutdown ends the bridge. -/
  | close (thread : τ)
  /-- The second part announces it. -/
  | announce (thread : τ)
  | drain
  | event (event : Engine.Event κ Nat)
  | take (position : Nat)
  | retreat

namespace Correspondence

variable {τ κ : Type} [DecidableEq κ]

def give (state : Correspondence τ κ) (question : Question)
    (client : Client κ) :
    Correspondence τ κ :=
  { state with client, asked := state.asked ++ [question] }

def drain (state : Correspondence τ κ) : Correspondence τ κ :=
  let (bridge, adapter, engine) :=
    ClientAdapter.drainOne state.now state.client.bridge
      (state.client.adapter, state.engine)
  { state with client := { state.client with bridge, adapter }, engine }

def take (state : Correspondence τ κ) (position : Nat) : Correspondence τ κ :=
  match state.transit[position]? with
  | none => state
  | some delivery =>
      let transit := state.transit.eraseIdx position
      if delivery.waiter.caller = state.client.adapter.caller then
        let adapter := state.client.adapter.answerDelivered delivery
        { state with transit, client := { state.client with adapter } }
      else { state with transit }

def withdraw (state : Correspondence τ κ) : Correspondence τ κ :=
  match state.retreat with
  | .serving =>
      { state with
        client := { state.client with isShutdown := true }
        retreat := .announced }
  | .announced =>
      let client := state.client.closeBridge
      { state with
        client := { client with bridge := (client.bridge.stop).1 }
        retreat := .closed }
  | .closed =>
      let (adapter, engine) := state.client.adapter.stop state.engine
      { state with
        client := { state.client with adapter }, engine, retreat := .gone }
  | .gone => state

section Runs

variable [DecidableEq τ]

/-- A thread between the two parts of a call makes no other. -/
def isBusy (state : Correspondence τ κ) (thread : τ) : Bool :=
  state.asking.any (·.1 = thread) || state.closing.contains thread

def act (state : Correspondence τ κ) : Action τ κ → Correspondence τ κ
  | .ask thread question flags =>
      if state.isBusy thread then state
      else if state.client.isShutdown then
        state.give question (state.client.failed .clientShutdown).1
      else { state with asking := (thread, question, flags) :: state.asking }
  | .send thread =>
      match state.asking.lookup thread with
      | none => state
      | some (question, flags) =>
          let asking := state.asking.filter fun call => call.1 ≠ thread
          { state with asking }.give question
            (state.client.enqueue question flags).1
  | .close thread =>
      -- A thread that has seen no shutdown can come here after one, so nothing
      -- is asked again.
      if state.isBusy thread then state
      else
        { state with
          client := state.client.closeBridge
          closing := thread :: state.closing }
  | .announce thread =>
      if thread ∈ state.closing then
        { state with
          client := { state.client with isShutdown := true }
          closing := state.closing.erase thread }
      else state
  | .drain => state.drain
  | .event event =>
      if event.isBy state.client.adapter.caller then state
      else
        let effect := state.engine.perform state.now event
        { state with
          engine := effect.engine
          now := event.clock state.now
          transit := state.transit ++ effect.deliveries }
  | .take position => state.take position
  | .retreat => state.withdraw

def create (caller : κ) (settings : Settings) (ids : Nat → UInt16) :
    Correspondence τ κ where
  client := .create caller
  engine := .create settings ids

def run (caller : κ) (settings : Settings) (ids : Nat → UInt16)
    (actions : List (Action τ κ)) :
    Correspondence τ κ :=
  actions.foldl act (create caller settings ids)

end Runs

/-- The requests of the adapter for which the engine has an answer to find or to
hand over. -/
def waiters (state : Correspondence τ κ) : List (Request κ Nat) :=
  (state.engine.parked ++ state.transit.map Delivery.request).filter
    fun request => request.waiter.caller = state.client.adapter.caller

/-- The futures with their places: on the bridge, under a token, and
resolved. -/
def places (client : Client κ) : List Nat :=
  client.bridge.items.map ClientRequest.future ++
    (client.adapter.pending.map Prod.snd ++
      client.adapter.resolved.map Prod.fst)

/-- Every future has one place, and what is known of it is about its
question. -/
structure Kept (state : Correspondence τ κ) : Prop where
  armed : state.engine.Armed
  given : state.asked.length = state.client.futures
  places : (places state.client).Perm (List.range state.client.futures)
  queued : ∀ request ∈ state.client.bridge.items,
    state.asked[request.future]? = some request.question
  carried : state.retreat ≠ .gone →
    (state.client.adapter.pending.map fun entry =>
      (entry.1, state.asked[entry.2]?)).Perm
      (state.waiters.map fun request =>
        (request.waiter.context, some request.question))
  tokens : (state.client.adapter.pending.map Prod.fst).Nodup
  fresh : ∀ token ∈ state.client.adapter.pending.map Prod.fst,
    token < state.client.adapter.nextToken
  answered : ∀ reply ∈ state.client.adapter.resolved, ∀ answer, reply.2 =
    .ok answer → state.asked[reply.1]? = some answer.question
  ended : state.client.bridge.closed → state.client.bridge.items = []
  announced : state.retreat ≠ .serving → state.client.isShutdown
  closed : state.retreat = .closed ∨ state.retreat = .gone →
    state.client.bridge.closed
  gone : state.retreat = .gone → state.client.adapter.pending = [] ∧
    ∀ request ∈ state.engine.parked, request.waiter.caller ≠
    state.client.adapter.caller

variable {state : Correspondence τ κ}

theorem asked_append {asked : List Question} {future : Nat}
    {question : Question} (hasked : asked[future]? = some question)
    (more : List Question) :
    (asked ++ more)[future]? = some question := by
  rw [List.getElem?_append_left (List.getElem?_eq_some_iff.mp hasked).1, hasked]

theorem Kept.open_of_items (hkept : Kept state) {request : ClientRequest}
    {rest : List ClientRequest}
    (hitems : state.client.bridge.items = request :: rest) :
    ¬state.client.bridge.closed := by
  intro hclosed
  rw [hkept.ended hclosed] at hitems
  cases hitems

theorem Kept.serving_of_items (hkept : Kept state) {request : ClientRequest}
    {rest : List ClientRequest}
    (hitems : state.client.bridge.items = request :: rest) :
    state.retreat ≠ .gone :=
  fun hgone => hkept.open_of_items hitems (hkept.closed (.inr hgone))

theorem Kept.nextToken_not_mem (hkept : Kept state) :
    state.client.adapter.nextToken ∉
      state.client.adapter.pending.map Prod.fst :=
  fun hmem => Nat.lt_irrefl _ (hkept.fresh _ hmem)

theorem Kept.pending_lt (hkept : Kept state) :
    ∀ entry ∈ state.client.adapter.pending, entry.2 < state.asked.length := by
  intro entry hentry
  have hplace : entry.2 ∈ Correspondence.places state.client := by
    refine List.mem_append_right _ (List.mem_append_left _ ?_)
    exact List.mem_map_of_mem hentry
  rw [hkept.given, ← List.mem_range]
  exact hkept.places.mem_iff.mp hplace

theorem Kept.carried_append (hkept : Kept state) (question : Question) :
    (state.client.adapter.pending.map fun entry =>
        (entry.1, (state.asked ++ [question])[entry.2]?)) =
      state.client.adapter.pending.map fun entry =>
        (entry.1, state.asked[entry.2]?) := by
  apply List.map_congr_left
  intro entry hentry
  rw [List.getElem?_append_left (hkept.pending_lt entry hentry)]

theorem Kept.failed (hkept : Kept state) (question : Question) :
    Kept (state.give question (state.client.failed .clientShutdown).1) where
  armed := hkept.armed
  given := by
    rw [give, List.length_append, hkept.given]
    rfl
  places := by
    have hplaces := hkept.places.append_right [state.client.futures]
    rw [← List.range_succ] at hplaces
    simpa [Correspondence.places, give, Client.failed, ClientAdapter.resolve]
      using hplaces
  queued request hrequest :=
    asked_append (hkept.queued request hrequest) [question]
  carried hstage := by
    have hcarried := hkept.carried hstage
    rw [← hkept.carried_append question] at hcarried
    exact hcarried
  tokens := hkept.tokens
  fresh := hkept.fresh
  answered reply hreply answer hanswer := by
    rcases List.mem_append.mp hreply with hold | hnew
    · exact asked_append (hkept.answered reply hold answer hanswer) [question]
    · rw [List.mem_singleton.mp hnew] at hanswer
      cases hanswer
  ended := hkept.ended
  announced := hkept.announced
  closed := hkept.closed
  gone := hkept.gone

theorem Kept.enqueue (hkept : Kept state) (question : Question)
    (flags : Flags) :
    Kept (state.give question (state.client.enqueue question flags).1) := by
  rcases state.client.enqueue_cases question flags with
    ⟨-, heq⟩ | ⟨hopen, bridge, hitems, hstill, heq⟩
  · rw [heq]
    exact hkept.failed question
  · rw [heq]
    exact {
      armed := hkept.armed
      given := by
        rw [give, List.length_append, hkept.given]
        rfl
      places := by
        have hplaces := hkept.places.append_right [state.client.futures]
        rw [← List.range_succ] at hplaces
        refine List.Perm.trans ?_ hplaces
        simp only [Correspondence.places, give, hitems, List.map_append,
          List.map_cons, List.map_nil, List.append_assoc]
        exact (List.perm_append_comm.trans (by simp)).append_left _
      queued := by
        intro request hrequest
        rw [give, hitems] at hrequest
        rcases List.mem_append.mp hrequest with hold | hnew
        · exact asked_append (hkept.queued request hold) [question]
        · rw [List.mem_singleton.mp hnew, give, ← hkept.given]
          simp
      carried := by
        intro hstage
        have hcarried := hkept.carried hstage
        rw [← hkept.carried_append question] at hcarried
        exact hcarried
      tokens := hkept.tokens
      fresh := hkept.fresh
      answered := fun reply hreply answer hanswer =>
        asked_append (hkept.answered reply hreply answer hanswer) [question]
      ended := fun hclosed =>
        absurd (hstill.symm.trans hclosed) Bool.false_ne_true
      announced := hkept.announced
      closed := fun hstage =>
        absurd (hopen.symm.trans (hkept.closed hstage)) Bool.false_ne_true
      gone := hkept.gone }

theorem Kept.closeBridge (hkept : Kept state) :
    Kept { state with client := state.client.closeBridge } ∧
      state.client.closeBridge.bridge.closed := by
  obtain ⟨bridge, hitems, hclosed, heq⟩ :=
    state.client.closeBridge_eq hkept.ended
  rw [heq, ClientAdapter.abandon_eq]
  refine ⟨?_, hclosed⟩
  exact {
    armed := hkept.armed
    given := hkept.given
    places := by
      refine List.Perm.trans ?_ hkept.places
      simp only [Correspondence.places, hitems, List.map_nil, List.nil_append,
        List.map_append, List.map_map, Function.comp_def, ← List.append_assoc]
      refine List.perm_append_comm.trans ?_
      rw [List.append_assoc]
    queued := by
      rw [hitems]
      exact nofun
    carried := hkept.carried
    tokens := hkept.tokens
    fresh := hkept.fresh
    answered := by
      intro reply hreply answer hanswer
      rcases List.mem_append.mp hreply with hold | hnew
      · exact hkept.answered reply hold answer hanswer
      · obtain ⟨future, -, rfl⟩ := List.mem_map.mp hnew
        cases hanswer
    ended := fun _ => hitems
    announced := hkept.announced
    closed := fun _ => hclosed
    gone := hkept.gone }

theorem filter_perm {α : Type} {before after more : List α} (others : List α)
    (test : α → Bool) (hperm : after.Perm (before ++ more)) :
    ((after ++ others).filter test).Perm
      ((before ++ others).filter test ++ more.filter test) := by
  rw [← List.filter_append]
  apply List.Perm.filter
  refine (hperm.append_right others).trans ?_
  rw [List.append_assoc, List.append_assoc]
  exact List.perm_append_comm.append_left before

theorem Kept.parked (hkept : Kept state) {request : ClientRequest}
    {rest : List ClientRequest}
    (hitems : state.client.bridge.items = request :: rest)
    {engine : Engine κ Nat} (harmed : engine.Armed)
    (hparked : engine.parked.Perm
      (state.engine.parked ++
        [⟨request.question,
        ⟨state.client.adapter.caller, state.client.adapter.nextToken⟩⟩])) :
    Kept { state with
      engine
      client := { state.client with
        bridge := { state.client.bridge with items := rest }
        adapter := { state.client.adapter with
          nextToken := state.client.adapter.nextToken + 1
          pending := state.client.adapter.pending ++
            [(state.client.adapter.nextToken, request.future)] } } } where
  armed := harmed
  given := hkept.given
  places := by
    have hplaces := hkept.places
    simp only [Correspondence.places, hitems, List.map_cons, List.cons_append]
      at hplaces
    refine List.Perm.trans ?_ hplaces
    simp only [Correspondence.places, List.map_append, List.map_cons,
      List.map_nil, List.append_assoc, List.singleton_append]
    rw [← List.append_assoc, ← List.append_assoc]
    exact List.perm_middle
  queued other hother := hkept.queued other (by simp [hitems, hother])
  carried _ := by
    have hquestion := hkept.queued request (by simp [hitems])
    have hwaiters := (filter_perm (state.transit.map Delivery.request)
      (fun request => request.waiter.caller = state.client.adapter.caller)
      hparked).map
      fun request => (request.waiter.context, some request.question)
    refine List.Perm.trans ?_ hwaiters.symm
    rw [List.map_append, List.map_append, List.map_singleton, hquestion,
      List.filter_cons_of_pos (by simp), List.filter_nil, List.map_singleton]
    exact (hkept.carried (hkept.serving_of_items hitems)).append_right _
  tokens := by
    rw [List.map_append, List.nodup_append]
    refine ⟨hkept.tokens, List.nodup_singleton _,
      fun token htoken last hlast heq => ?_⟩
    rw [heq, List.mem_singleton.mp hlast] at htoken
    exact hkept.nextToken_not_mem htoken
  fresh token htoken := by
    rw [List.map_append] at htoken
    rcases List.mem_append.mp htoken with hold | hnew
    · exact Nat.lt_succ_of_lt (hkept.fresh token hold)
    · rw [List.mem_singleton.mp hnew]
      exact Nat.lt_succ_self _
  answered := hkept.answered
  ended hclosed := absurd hclosed (hkept.open_of_items hitems)
  announced := hkept.announced
  closed hstage := absurd (hkept.closed hstage) (hkept.open_of_items hitems)
  gone hgone := absurd hgone (hkept.serving_of_items hitems)

theorem Kept.settled (hkept : Kept state) {request : ClientRequest}
    {rest : List ClientRequest}
    (hitems : state.client.bridge.items = request :: rest)
    {engine : Engine κ Nat} (harmed : engine.Armed)
    (hparked : engine.parked.Perm state.engine.parked) {reply : ClientReply}
    (hreply : ∀ answer, reply = .ok answer →
      answer.question = request.question) :
    Kept { state with
      engine
      client := { state.client with
        bridge := { state.client.bridge with items := rest }
        adapter := { state.client.adapter with
          nextToken := state.client.adapter.nextToken + 1
          resolved :=
            state.client.adapter.resolved ++ [(request.future, reply)] } } }
    where
  armed := harmed
  given := hkept.given
  places := by
    have hplaces := hkept.places
    simp only [Correspondence.places, hitems, List.map_cons, List.cons_append]
      at hplaces
    refine List.Perm.trans ?_ hplaces
    simpa [Correspondence.places] using List.perm_append_singleton
      request.future
      (rest.map ClientRequest.future ++
        (state.client.adapter.pending.map Prod.snd ++
        state.client.adapter.resolved.map Prod.fst))
  queued other hother := hkept.queued other (by simp [hitems, hother])
  carried _ := by
    have hwaiters :=
      ((hparked.append_right (state.transit.map Delivery.request)).filter
      fun request => request.waiter.caller = state.client.adapter.caller).map
      fun request => (request.waiter.context, some request.question)
    exact (hkept.carried (hkept.serving_of_items hitems)).trans hwaiters.symm
  tokens := hkept.tokens
  fresh token htoken := Nat.lt_succ_of_lt (hkept.fresh token htoken)
  answered other hother answer hanswer := by
    rcases List.mem_append.mp hother with hold | hnew
    · exact hkept.answered other hold answer hanswer
    · rw [List.mem_singleton.mp hnew] at hanswer ⊢
      rw [hreply answer hanswer]
      exact hkept.queued request (by simp [hitems])
  ended hclosed := absurd hclosed (hkept.open_of_items hitems)
  announced := hkept.announced
  closed hstage := absurd (hkept.closed hstage) (hkept.open_of_items hitems)
  gone hgone := absurd hgone (hkept.serving_of_items hitems)

theorem Kept.drain (hkept : Kept state) : Kept state.drain := by
  rw [Correspondence.drain, ClientAdapter.drainOne, Bridge.consume]
  cases hitems : state.client.bridge.items with
  | nil => exact hkept
  | cons request rest =>
      obtain ⟨hpending, hready⟩ :=
        Engine.resolve_parked hkept.armed.keyed state.now
        request.question state.client.adapter.caller
          state.client.adapter.nextToken request.flags
      have harmed := hkept.armed.move (state.engine.perform_move state.now
        (.resolve request.question state.client.adapter.caller
          state.client.adapter.nextToken request.flags))
      rcases state.client.adapter.submit_cases state.engine state.now request
          hkept.nextToken_not_mem with
        ⟨hresult, hsubmit⟩ | ⟨hresult, reply, hreply, hsubmit⟩
      · simp only [hsubmit]
        exact hkept.parked hitems harmed (hpending hresult)
      · simp only [hsubmit]
        exact hkept.settled hitems harmed (hready hresult) hreply

theorem perform_waiters {engine : Engine κ Nat} (hkeyed : engine.Keyed)
    (now : Nat) {event : Engine.Event κ Nat} {caller : κ}
    (hother : ¬event.isBy caller = true) :
    let effect := engine.perform now event
    (engine.parked.filter fun request => request.waiter.caller = caller).Perm
      ((effect.engine.parked ++ effect.deliveries.map Delivery.request).filter
        fun request => request.waiter.caller = caller) := by
  intro effect
  have hperm := ((engine.perform_move now event).parked_perm hkeyed).filter
    fun request => request.waiter.caller = caller
  have hadmitted (resolution? : Option (Except Error (Resolution Nat))) :
      (event.admitted resolution?).filter (fun request =>
        request.waiter.caller = caller) = [] := by
    rw [List.filter_eq_nil_iff]
    intro request hrequest
    unfold Engine.Event.admitted at hrequest
    split at hrequest
    next =>
      rw [List.mem_singleton.mp hrequest]
      simpa [Engine.Event.isBy] using hother
    next => cases hrequest
  have htaken :
      (engine.taken event).filter (fun request =>
        request.waiter.caller = caller) = [] := by
    cases event with
    | cancel other =>
        have hne : other ≠ caller := by simpa [Engine.Event.isBy] using hother
        simp only [Engine.taken, List.filter_filter, List.filter_eq_nil_iff]
        intro request hrequest hboth
        simp only [Bool.and_eq_true, decide_eq_true_eq] at hboth
        exact hne (hboth.2.symm.trans hboth.1)
    | _ => rfl
  rw [List.filter_append, hadmitted, List.append_nil, List.filter_append,
    List.filter_append, htaken, List.append_nil, ← List.filter_append] at hperm
  exact hperm

theorem Kept.event (hkept : Kept state) {event : Engine.Event κ Nat}
    (hother : ¬event.isBy state.client.adapter.caller = true) :
    let effect := state.engine.perform state.now event
    Kept { state with
      engine := effect.engine
      now := event.clock state.now
      transit := state.transit ++ effect.deliveries } := by
  intro effect
  have hwaiters : (state.engine.parked.filter fun request =>
      request.waiter.caller = state.client.adapter.caller).Perm
        ((effect.engine.parked ++ effect.deliveries.map Delivery.request).filter
          fun request => request.waiter.caller = state.client.adapter.caller) :=
    perform_waiters hkept.armed.keyed state.now hother
  have hall : ((effect.engine.parked ++ (state.transit ++ effect.deliveries).map
      Delivery.request).filter fun request =>
        request.waiter.caller = state.client.adapter.caller).Perm
          state.waiters := by
    rw [List.map_append, List.filter_append, List.filter_append, waiters,
      List.filter_append]
    rw [List.filter_append] at hwaiters
    refine List.Perm.trans ?_ (hwaiters.symm.append_right _)
    rw [List.append_assoc]
    exact List.perm_append_comm.append_left _
  exact {
    armed := hkept.armed.move (state.engine.perform_move state.now event)
    given := hkept.given
    places := hkept.places
    queued := hkept.queued
    carried := fun hserving => (hkept.carried hserving).trans (hall.symm.map _)
    tokens := hkept.tokens
    fresh := hkept.fresh
    answered := hkept.answered
    ended := hkept.ended
    announced := hkept.announced
    closed := hkept.closed
    gone := by
      -- Requests of others may come and go; none of the adapter's appears among
      -- them.
      intro hgone
      obtain ⟨hpending, hnone⟩ := hkept.gone hgone
      refine ⟨hpending, fun request hrequest hcaller => ?_⟩
      have hmem : request ∈ state.engine.parked.filter fun request =>
          request.waiter.caller = state.client.adapter.caller :=
        hwaiters.mem_iff.mpr (by simp [effect, hrequest, hcaller])
      exact hnone request (List.mem_of_mem_filter hmem) hcaller }

/-- Each waiter of the adapter has its future under its token. -/
theorem Kept.lookup (hkept : Kept state) (hserving : state.retreat ≠ .gone)
    {request : Request κ Nat} (hrequest : request ∈ state.waiters) :
    ∃ future, state.client.adapter.pending.lookup request.waiter.context =
      some future ∧
      state.asked[future]? = some request.question := by
  have hmem : (request.waiter.context, some request.question) ∈
      state.client.adapter.pending.map fun entry =>
        (entry.1, state.asked[entry.2]?) :=
    (hkept.carried hserving).mem_iff.mpr
      (List.mem_map.mpr ⟨request, hrequest, rfl⟩)
  obtain ⟨⟨token, future⟩, hentry, heq⟩ := List.mem_map.mp hmem
  obtain ⟨rfl, hasked⟩ := Prod.mk.inj heq
  exact ⟨future, ClientAdapter.lookup_of_mem hkept.tokens hentry, hasked⟩

theorem Kept.delivered (hkept : Kept state) {delivery : Delivery κ Nat}
    {transit : List (Delivery κ Nat)}
    (hwaiters : state.waiters.Perm
      (delivery.request :: waiters { state with transit })) :
    Kept { state with
      transit
      client :=
        { state.client with
          adapter := state.client.adapter.answerDelivered delivery } } := by
  rw [ClientAdapter.answerDelivered]
  by_cases hgone : state.retreat = .gone
  -- The answer was under way when the adapter was stopped, and its token leads
  -- nowhere.
  · have hpending := (hkept.gone hgone).1
    rw [ClientAdapter.reply_of_empty hpending]
    exact { hkept with carried := fun hserving => absurd hgone hserving }
  · obtain ⟨future, hlookup, hasked⟩ :=
      hkept.lookup hgone (hwaiters.mem_iff.mpr List.mem_cons_self)
    change state.client.adapter.pending.lookup delivery.waiter.context =
      some future at hlookup
    have hpending := ClientAdapter.pending_perm hkept.tokens hlookup
    rw [ClientAdapter.reply_of_lookup hlookup]
    exact { hkept with
      places := by
        refine List.Perm.trans (List.Perm.append_left _ ?_) hkept.places
        refine List.Perm.trans ?_ ((hpending.map Prod.snd).symm.append_right _)
        simp only [List.map_append, List.map_cons, List.map_nil,
          List.cons_append, ← List.append_assoc]
        exact List.perm_append_singleton _ _
      carried := by
        intro _
        have hcarried :=
          ((hpending.map _).symm.trans (hkept.carried hgone)).trans
          (hwaiters.map _)
        rw [List.map_cons, List.map_cons, hasked] at hcarried
        exact hcarried.cons_inv
      tokens := hkept.tokens.sublist (List.filter_sublist.map _)
      fresh := fun token htoken => by
        obtain ⟨entry, hentry, rfl⟩ := List.mem_map.mp htoken
        exact hkept.fresh _
          (List.mem_map_of_mem (List.mem_of_mem_filter hentry))
      answered := by
        intro reply hreply answer hanswer
        rcases List.mem_append.mp hreply with hold | hnew
        · exact hkept.answered reply hold answer hanswer
        · rw [List.mem_singleton.mp hnew] at hanswer ⊢
          cases hanswer
          exact hasked
      gone := fun hend => absurd hend hgone }

theorem Kept.take (hkept : Kept state) (position : Nat) :
    Kept (state.take position) := by
  rw [Correspondence.take]
  split
  next => exact hkept
  next delivery hdelivery =>
    obtain ⟨hlt, hget⟩ := List.getElem?_eq_some_iff.mp hdelivery
    have htransit := List.getElem_cons_eraseIdx_perm hlt
    rw [hget] at htransit
    have hwaiters : state.waiters.Perm ((delivery.request ::
        (state.engine.parked ++ (state.transit.eraseIdx position).map
          Delivery.request)).filter
          fun request => request.waiter.caller =
            state.client.adapter.caller) := by
      apply List.Perm.filter
      refine ((htransit.map Delivery.request).symm.append_left _).trans ?_
      exact List.perm_middle
    split
    next hcaller =>
      exact hkept.delivered
        (hwaiters.trans
          (.of_eq (List.filter_cons_of_pos (decide_eq_true hcaller))))
    next hcaller =>
      have hothers := hwaiters.trans
        (.of_eq (List.filter_cons_of_neg fun heq =>
          hcaller (of_decide_eq_true heq)))
      exact { hkept with
        carried :=
          fun hserving => (hkept.carried hserving).trans (hothers.map _) }

theorem Kept.withdraw (hkept : Kept state) : Kept state.withdraw := by
  rw [Correspondence.withdraw]
  split
  next hretreat =>
    exact { hkept with
      carried := fun _ => hkept.carried (by simp [hretreat])
      announced := fun _ => rfl
      closed := by simp
      gone := by simp }
  next hretreat =>
    obtain ⟨hclosing, hclosed⟩ := hkept.closeBridge
    have hstop : state.client.closeBridge.bridge.stop.1 =
        { state.client.closeBridge.bridge with watch := .absent } := by
      rw [Bridge.stop, Bridge.close, if_pos hclosed]
    have hserving : state.retreat ≠ .gone := by simp [hretreat]
    simp only [hstop]
    exact { hclosing with
      carried := fun _ => hclosing.carried hserving
      announced := fun _ => hclosing.announced (by simp [hretreat])
      closed := fun _ => hclosed
      gone := by simp }
  next hretreat =>
    have hserving : state.retreat ≠ .gone := by simp [hretreat]
    rw [ClientAdapter.stop, ClientAdapter.abandon_eq]
    exact { hkept with
      armed := hkept.armed.move (state.engine.perform_move state.now
        (.cancel state.client.adapter.caller))
      places := by
        refine List.Perm.trans (List.Perm.append_left _ ?_) hkept.places
        simp only [List.map_append, List.map_map, Function.comp_def,
          List.map_nil, List.nil_append]
        exact List.perm_append_comm
      carried := fun hend => absurd rfl hend
      tokens := List.nodup_nil
      fresh := by simp
      answered := by
        intro reply hreply answer hanswer
        rcases List.mem_append.mp hreply with hold | hnew
        · exact hkept.answered reply hold answer hanswer
        · obtain ⟨future, -, rfl⟩ := List.mem_map.mp hnew
          cases hanswer
      announced := fun _ => hkept.announced (by simp [hretreat])
      closed := fun _ => hkept.closed (.inl hretreat)
      gone := by
        refine fun _ => ⟨rfl, fun request hrequest => ?_⟩
        rw [Engine.cancel_parked] at hrequest
        simpa using List.of_mem_filter hrequest }
  next => exact hkept

theorem create_kept (caller : κ) (settings : Settings) (ids : Nat → UInt16) :
    Kept (create caller settings ids : Correspondence τ κ) where
  armed := Engine.create_armed settings ids
  given := rfl
  places := .refl _
  queued := nofun
  carried _ := .refl _
  tokens := List.nodup_nil
  fresh := nofun
  answered := nofun
  ended _ := rfl
  announced hstage := absurd rfl hstage
  closed := by simp [create]
  gone := by simp [create]

section Runs

variable [DecidableEq τ]

theorem Kept.act (hkept : Kept state) (action : Action τ κ) :
    Kept (state.act action) := by
  cases action with
  | ask thread question flags =>
      rw [Correspondence.act]
      split
      next => exact hkept
      next =>
        split
        next => exact hkept.failed question
        next => exact { hkept with }
  | send thread =>
      rw [Correspondence.act]
      split
      next => exact hkept
      next question flags heq =>
        have hwithout : Kept { state with
            asking := state.asking.filter fun call => call.1 ≠ thread } :=
              { hkept with }
        exact hwithout.enqueue question flags
  | close thread =>
      rw [Correspondence.act]
      split
      next => exact hkept
      next => exact { hkept.closeBridge.1 with }
  | announce thread =>
      rw [Correspondence.act]
      split
      next => exact { hkept with announced := fun _ => rfl }
      next => exact hkept
  | drain => exact hkept.drain
  | event event =>
      rw [Correspondence.act]
      split
      next => exact hkept
      next hother => exact hkept.event hother
  | take position => exact hkept.take position
  | retreat => exact hkept.withdraw

theorem actions_kept (actions : List (Action τ κ)) (hkept : Kept state) :
    Kept (actions.foldl act state) := by
  induction actions generalizing state with
  | nil => exact hkept
  | cons action rest ih => exact ih (hkept.act action)

end Runs

end Correspondence

end DnsForwarder
