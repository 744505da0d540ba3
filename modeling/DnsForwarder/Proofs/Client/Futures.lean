import DnsForwarder.Proofs.Client.Custody

/-! What becomes of the futures of a client. Each of them has one place at any
time and is resolved once, with an answer to its question or an error; none is
left behind when the client ends. -/

namespace DnsForwarder

namespace Correspondence

variable {τ κ : Type} {state : Correspondence τ κ}

/-- Replies have come after those of a state, and all of them tell of the end if
it had come. -/
def Followed (state : Correspondence τ κ)
    (resolved : List (Nat × ClientReply)) : Prop :=
  ∃ more, resolved = state.client.adapter.resolved ++ more ∧
    (state.retreat = .gone → ∀ reply ∈ more, reply.2 = .error .clientShutdown)

theorem followed_same : Followed state state.client.adapter.resolved :=
  ⟨[], (List.append_nil _).symm, fun _ => nofun⟩

theorem followed_abandon (futures : List Nat) :
    Followed state (state.client.adapter.abandon futures).resolved := by
  rw [ClientAdapter.abandon_eq]
  exact ⟨_, rfl, by simp⟩

variable [DecidableEq κ]

theorem Kept.followed_drain (hkept : Kept state) :
    Followed state state.drain.client.adapter.resolved := by
  rw [Correspondence.drain, ClientAdapter.drainOne, Bridge.consume]
  cases hitems : state.client.bridge.items with
  | nil => exact followed_same
  | cons request rest =>
      have hserving := hkept.serving_of_items hitems
      rcases state.client.adapter.submit_cases state.engine state.now request
          hkept.nextToken_not_mem with
        ⟨-, hsubmit⟩ | ⟨-, reply, -, hsubmit⟩
      · simp only [hsubmit]
        exact followed_same
      · simp only [hsubmit]
        exact ⟨_, rfl, fun hgone => absurd hgone hserving⟩

theorem Kept.followed_answer (hkept : Kept state) (delivery : Delivery κ Nat) :
    Followed state
      (state.client.adapter.answerDelivered delivery).resolved := by
  rw [ClientAdapter.answerDelivered]
  cases hlookup : state.client.adapter.pending.lookup
    delivery.waiter.context with
  | none =>
      rw [ClientAdapter.reply, hlookup]
      exact followed_same
  | some future =>
      rw [ClientAdapter.reply_of_lookup hlookup]
      refine ⟨_, rfl, fun hgone => ?_⟩
      rw [(hkept.gone hgone).1] at hlookup
      cases hlookup

theorem Kept.followed_close (hkept : Kept state) :
    Followed state state.client.closeBridge.adapter.resolved := by
  obtain ⟨bridge, -, -, heq⟩ := state.client.closeBridge_eq hkept.ended
  rw [heq]
  exact followed_abandon _

theorem Kept.all_resolved (hkept : Kept state) (hgone : state.retreat = .gone) :
    (state.client.adapter.resolved.map Prod.fst).Perm
      (List.range state.client.futures) := by
  have hplaces := hkept.places
  rwa [Correspondence.places, hkept.ended (hkept.closed (.inr hgone)),
    (hkept.gone hgone).1] at hplaces

section Runs

variable [DecidableEq τ]

theorem act_gone (hgone : state.retreat = .gone) (action : Action τ κ) :
    (state.act action).retreat = .gone := by
  cases action with
  | ask thread question flags =>
      rw [act]; split <;> [skip; split] <;> exact hgone
  | send thread => rw [act]; split <;> exact hgone
  | close thread => rw [act]; split <;> exact hgone
  | announce thread => rw [act]; split <;> exact hgone
  | drain => exact hgone
  | event event => rw [act]; split <;> exact hgone
  | take position => rw [act, take]; split <;> [skip; split] <;> exact hgone
  | retreat => rw [act, withdraw, hgone]; exact hgone

/-- Replies are final, and after the end there is only one. -/
theorem Kept.followed (hkept : Kept state) (action : Action τ κ) :
    Followed state (state.act action).client.adapter.resolved := by
  have hfailed :
      Followed state (state.client.failed .clientShutdown).1.adapter.resolved :=
    followed_abandon [state.client.futures]
  cases action with
  | ask thread question flags =>
      rw [Correspondence.act]
      split
      next => exact followed_same
      next =>
        split
        next => exact hfailed
        next => exact followed_same
  | send thread =>
      rw [Correspondence.act]
      split
      next => exact followed_same
      next question flags heq =>
        rcases state.client.enqueue_cases question flags with
          ⟨-, heq⟩ | ⟨-, bridge, -, -, heq⟩
        · simp only [give, heq]
          exact hfailed
        · simp only [give, heq]
          exact followed_same
  | close thread =>
      rw [Correspondence.act]
      split
      next => exact followed_same
      next => exact hkept.followed_close
  | announce thread =>
      rw [Correspondence.act]
      split <;> exact followed_same
  | drain => exact hkept.followed_drain
  | event event =>
      rw [Correspondence.act]
      split <;> exact followed_same
  | take position =>
      rw [Correspondence.act, Correspondence.take]
      split
      next => exact followed_same
      next delivery hdelivery =>
        split
        next => exact hkept.followed_answer delivery
        next => exact followed_same
  | retreat =>
      rw [Correspondence.act, Correspondence.withdraw]
      split
      next => exact followed_same
      next => exact hkept.followed_close
      next =>
        rw [ClientAdapter.stop, ClientAdapter.abandon_eq]
        refine ⟨_, rfl, fun _ reply hreply => ?_⟩
        obtain ⟨future, -, rfl⟩ := List.mem_map.mp hreply
        rfl
      next => exact followed_same

theorem actions_followed (actions : List (Action τ κ)) (hkept : Kept state) :
    Followed state (actions.foldl act state).client.adapter.resolved := by
  induction actions generalizing state with
  | nil => exact followed_same
  | cons action rest ih =>
      obtain ⟨first, hfirst, hended⟩ := hkept.followed action
      obtain ⟨more, hmore, hafter⟩ := ih (hkept.act action)
      refine ⟨first ++ more, ?_, fun hgone reply hreply => ?_⟩
      · rw [List.foldl_cons, hmore, hfirst, List.append_assoc]
      · rcases List.mem_append.mp hreply with hold | hnew
        · exact hended hgone reply hold
        · exact hafter (act_gone hgone action) reply hnew

theorem actions_gone (actions : List (Action τ κ))
    (hgone : state.retreat = .gone) :
    (actions.foldl act state).retreat = .gone := by
  induction actions generalizing state with
  | nil => exact hgone
  | cons action rest ih => exact ih (act_gone hgone action)

/-- What is given out after the end is resolved, and tells of it. -/
theorem late_reply (hkept : Kept state) (hgone : state.retreat = .gone)
    (later : List (Action τ κ)) {future : Nat}
    (hlate : state.client.futures ≤ future)
    (hgiven : future < (later.foldl act state).client.futures) :
    (later.foldl act state).client.reply? future =
      some (.error .clientShutdown) := by
  obtain ⟨more, hmore, hshutdown⟩ := actions_followed later hkept
  -- All futures of then have replies, and those of before have the former ones.
  have hnew : future ∈ more.map Prod.fst := by
    have hall :=
      ((actions_kept later hkept).all_resolved
          (actions_gone later hgone)).mem_iff.mpr (List.mem_range.mpr hgiven)
    rw [hmore, List.map_append] at hall
    refine (List.mem_append.mp hall).resolve_left fun hold => ?_
    have hlt := List.mem_range.mp ((hkept.all_resolved hgone).mem_iff.mp hold)
    exact Nat.not_lt.mpr hlate hlt
  have hold : state.client.adapter.resolved.lookup future = none := by
    rw [List.lookup_eq_none_iff]
    intro reply hreply
    have hlt := List.mem_range.mp
      ((hkept.all_resolved hgone).mem_iff.mp (List.mem_map_of_mem hreply))
    simpa using Nat.ne_of_gt (Nat.lt_of_lt_of_le hlt hlate)
  rw [Client.reply?, hmore, List.lookup_append, hold, Option.none_or]
  obtain ⟨reply, hreply, rfl⟩ := List.mem_map.mp hnew
  cases hlookup : more.lookup reply.1 with
  | none =>
      have hne := List.lookup_eq_none_iff.mp hlookup reply hreply
      simp at hne
  | some found =>
      obtain ⟨front, back, rfl, -⟩ := List.lookup_eq_some_iff.mp hlookup
      exact congrArg some (hshutdown hgone (reply.1, found) (by simp))

/-- A request is its two parts. -/
theorem request_parts {thread : τ} (hidle : ¬state.isBusy thread = true)
    (question : Question) (flags : Flags) :
    (state.act (.ask thread question flags)).act (.send thread) =
      state.give question (state.client.request question flags).1 := by
  have hnone : ∀ call ∈ state.asking, call.1 ≠ thread := by
    intro call hcall heq
    apply hidle
    simp only [isBusy, Bool.or_eq_true, List.any_eq_true]
    exact .inl ⟨call, hcall, decide_eq_true heq⟩
  rw [act, if_neg hidle, Client.request]
  by_cases hshutdown : state.client.isShutdown
  · rw [if_pos hshutdown, if_pos hshutdown]
    have hlookup : state.asking.lookup thread = none := by
      rw [List.lookup_eq_none_iff]
      intro call hcall
      simpa using (hnone call hcall).symm
    rw [act, give, hlookup]
  · rw [if_neg hshutdown, if_neg hshutdown]
    have hothers : state.asking.filter (fun call => !decide (call.1 = thread)) =
        state.asking := by
      rw [List.filter_eq_self]
      intro call hcall
      simpa using hnone call hcall
    simp [act, hothers]

theorem shutdown_parts {thread : τ} (hidle : ¬state.isBusy thread = true)
    (hserving : state.client.isShutdown = false) :
    (state.act (.close thread)).act (.announce thread) =
      { state with client := state.client.shutdown } := by
  have hnot : ¬state.client.isShutdown = true := by simp [hserving]
  rw [act, if_neg hidle, Client.shutdown, if_neg hnot, act,
    if_pos List.mem_cons_self, List.erase_cons_head]

theorem stop_parts (hserving : state.retreat = .serving) :
    ((state.act .retreat).act .retreat).act .retreat =
      { state with
        client := (state.client.stop state.engine).1
        engine := (state.client.stop state.engine).2
        retreat := .gone } := by
  simp only [act, withdraw, hserving]
  rfl

/-- However the steps of threads and of the reactor mix, each future is resolved
once, or has its request on the bridge, or waits under a token that one request
to the engine carries. A future that gets an answer gets one to its question.
Nothing waits after the end, and whoever asks then is told of it. -/
theorem every_future_has_one_place (caller : κ) (settings : Settings)
    (ids : Nat → UInt16) (actions : List (Action τ κ)) :
    let state : Correspondence τ κ := run caller settings ids actions
    (places state.client).Perm (List.range state.client.futures) ∧
      state.asked.length = state.client.futures ∧
      (∀ request ∈ state.client.bridge.items,
        state.asked[request.future]? = some request.question) ∧
      (∀ entry ∈ state.client.adapter.pending, ∃ request,
        state.waiters.filter (fun request =>
          request.waiter.context == entry.1) = [request] ∧
          state.asked[entry.2]? = some request.question) ∧
      (∀ future answer, (future, .ok answer) ∈ state.client.adapter.resolved →
        state.asked[future]? = some answer.question) ∧
      (state.retreat = .gone →
        (state.client.adapter.resolved.map Prod.fst).Perm
        (List.range state.client.futures) ∧
        state.client.bridge.items = [] ∧ state.client.adapter.pending = [] ∧
        (∀ request ∈ state.engine.parked, request.waiter.caller ≠
          state.client.adapter.caller) ∧
        ∀ later future, state.client.futures ≤ future →
          future < (run caller settings ids (actions ++ later)).client.futures →
          (run caller settings ids (actions ++ later) :
            Correspondence τ κ).client.reply? future =
            some (.error .clientShutdown)) := by
  intro state
  have hkept : Kept state :=
    actions_kept actions (create_kept caller settings ids)
  refine ⟨hkept.places, hkept.given, hkept.queued, ?_, ?_, ?_⟩
  · intro entry hentry
    have hserving : state.retreat ≠ .gone := by
      intro hgone
      rw [(hkept.gone hgone).1] at hentry
      cases hentry
    have hcarried := hkept.carried hserving
    have htokens := hcarried.map Prod.fst
    simp only [List.map_map, Function.comp_def] at htokens
    obtain ⟨request, hrequest, htoken, honly⟩ :=
      filter_number_of_mem htokens.symm hkept.tokens
      (List.mem_map_of_mem hentry)
    obtain ⟨future, hlookup, hasked⟩ := hkept.lookup hserving hrequest
    rw [htoken, ClientAdapter.lookup_of_mem hkept.tokens hentry] at hlookup
    rw [← Option.some.inj hlookup] at hasked
    exact ⟨request, honly, hasked⟩
  · intro future answer hreply
    exact hkept.answered _ hreply answer rfl
  · intro hgone
    obtain ⟨hpending, hparked⟩ := hkept.gone hgone
    refine ⟨hkept.all_resolved hgone, hkept.ended (hkept.closed (.inr hgone)),
      hpending, hparked,
      fun later future hlate hgiven => ?_⟩
    rw [run, List.foldl_append] at hgiven ⊢
    exact late_reply hkept hgone later hlate hgiven

end Runs

end Correspondence

end DnsForwarder
