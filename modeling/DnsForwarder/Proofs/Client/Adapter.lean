import DnsForwarder.Client.Basic
import DnsForwarder.Proofs.Engine.Delivery
import DnsForwarder.Proofs.Reactor.Lifecycle
import DnsForwarder.Proofs.Reactor.Traffic

/-! What the operations of a client do to its futures. A future under a token
moves to the resolved ones by a reply, and a request that leaves the bridge gets
a token of its own. -/

namespace DnsForwarder

namespace ClientAdapter

variable {κ : Type} {adapter : ClientAdapter κ} {token future : Nat}

theorem abandon_eq (adapter : ClientAdapter κ) (futures : List Nat) :
    adapter.abandon futures =
      { adapter with
        resolved :=
          adapter.resolved ++ futures.map fun future =>
            (future, .error .clientShutdown) } := by
  induction futures generalizing adapter with
  | nil => simp [abandon]
  | cons future rest ih =>
      have hrest := ih (adapter.resolve future (.error .clientShutdown))
      rw [abandon] at hrest ⊢
      rw [List.foldl_cons, hrest]
      simp [resolve]

theorem pending_perm {pending : List (Nat × Nat)}
    (hnodup : (pending.map Prod.fst).Nodup)
    (hlookup : pending.lookup token = some future) :
    pending.Perm ((token, future) :: pending.filter fun entry =>
      entry.1 != token) := by
  obtain ⟨front, back, rfl, -⟩ := List.lookup_eq_some_iff.mp hlookup
  rw [List.map_append, List.map_cons, List.nodup_middle, List.nodup_cons,
    ← List.map_append] at hnodup
  have hothers : (front ++ back).filter (fun entry => entry.1 != token) =
      front ++ back := by
    rw [List.filter_eq_self]
    intro entry hentry
    have hne : entry.1 ≠ token :=
      fun heq => hnodup.1 (List.mem_map.mpr ⟨entry, hentry, heq⟩)
    simpa using hne
  rw [List.filter_append] at hothers
  have hfilter :
      (front ++ (token, future) :: back).filter
      (fun entry => entry.1 != token) = front ++ back := by
    simp [List.filter_append, hothers]
  rw [hfilter]
  exact List.perm_middle

theorem reply_of_lookup {reply : ClientReply}
    (hlookup : adapter.pending.lookup token = some future) :
    adapter.reply token reply =
      { adapter with
        pending := adapter.pending.filter fun entry => entry.1 != token
        resolved := adapter.resolved ++ [(future, reply)] } := by
  rw [ClientAdapter.reply, hlookup]
  rfl

theorem lookup_of_not_mem {pending : List (Nat × Nat)}
    (htoken : token ∉ pending.map Prod.fst) :
    pending.lookup token = none := by
  rw [List.lookup_eq_none_iff]
  intro entry hentry
  have hne : entry.1 ≠ token :=
    fun heq => htoken (List.mem_map.mpr ⟨entry, hentry, heq⟩)
  simpa using Ne.symm hne

theorem lookup_of_mem {pending : List (Nat × Nat)}
    (hnodup : (pending.map Prod.fst).Nodup)
    (hentry : (token, future) ∈ pending) : pending.lookup token = some future :=
  (Reactor.lookup_eq_some_iff_mem hnodup).mpr hentry

theorem reply_of_empty {reply : ClientReply} (hpending : adapter.pending = []) :
    adapter.reply token reply = adapter := by
  rw [ClientAdapter.reply, hpending]
  rfl

/-- A request that is handed to the engine waits under a new token, or its
future is resolved at once. -/
theorem submit_cases (adapter : ClientAdapter κ) (engine : Engine κ Nat)
    (now : Nat) (request : ClientRequest)
    (hfresh : adapter.nextToken ∉ adapter.pending.map Prod.fst) :
    let outcome :=
      engine.resolve now request.question adapter.caller adapter.nextToken
        request.flags
    (outcome.2 = .ok .pending ∧ adapter.submit engine now request =
        ({ adapter with
            nextToken := adapter.nextToken + 1
            pending :=
              adapter.pending ++ [(adapter.nextToken, request.future)] },
          outcome.1)) ∨
      (outcome.2 ≠ .ok .pending ∧ ∃ reply,
        (∀ answer, reply = .ok answer → answer.question = request.question) ∧
        adapter.submit engine now request =
          ({ adapter with
              nextToken := adapter.nextToken + 1
              resolved := adapter.resolved ++ [(request.future, reply)] },
            outcome.1)) := by
  have hreply (reply : ClientReply) :
      ClientAdapter.reply
          { adapter with
            nextToken := adapter.nextToken + 1
            pending :=
              adapter.pending ++ [(adapter.nextToken, request.future)] }
          adapter.nextToken reply =
        { adapter with
          nextToken := adapter.nextToken + 1
          resolved := adapter.resolved ++ [(request.future, reply)] } := by
    have hlookup :
        (adapter.pending ++ [(adapter.nextToken, request.future)]).lookup
        adapter.nextToken = some request.future := by
      rw [List.lookup_append, lookup_of_not_mem hfresh]
      simp
    have hothers :
        adapter.pending.filter (fun entry => entry.1 != adapter.nextToken) =
        adapter.pending := by
      rw [List.filter_eq_self]
      intro entry hentry
      have hne : entry.1 ≠ adapter.nextToken :=
        fun heq => hfresh (List.mem_map.mpr ⟨entry, hentry, heq⟩)
      simpa using hne
    rw [reply_of_lookup hlookup, List.filter_append, hothers]
    simp
  intro outcome
  cases hresolve : engine.resolve now request.question adapter.caller
    adapter.nextToken request.flags with
  | mk after result =>
      simp only [outcome, submit, hresolve]
      cases result with
      | error error =>
          exact .inr ⟨nofun, .error error, nofun, by simp only [hreply]⟩
      | ok resolution =>
          cases resolution with
          | pending => exact .inl ⟨rfl, rfl⟩
          | ready answer context =>
              refine .inr ⟨nofun, .ok answer, ?_, by simp only [hreply]⟩
              rintro _ ⟨⟩
              exact Engine.resolve_question hresolve

end ClientAdapter

theorem Engine.resolve_parked {κ γ : Type} [DecidableEq κ]
    {engine : Engine κ γ} (hkeyed : engine.Keyed) (now : Nat)
    (question : Question) (caller : κ) (context : γ) (flags : Flags) :
    let outcome := engine.resolve now question caller context flags
    (outcome.2 = .ok .pending →
        outcome.1.parked.Perm
        (engine.parked ++ [⟨question, ⟨caller, context⟩⟩])) ∧
      (outcome.2 ≠ .ok .pending → outcome.1.parked.Perm engine.parked) := by
  intro outcome
  have hmove := engine.perform_move now (.resolve question caller context flags)
  have hperm := hmove.parked_perm hkeyed
  simp only [perform, taken, List.map_nil, List.append_nil] at hperm
  refine ⟨fun hpending => ?_, fun hready => ?_⟩
  · rw [hpending] at hperm
    exact hperm.symm
  · have hnone :
        Event.admitted (.resolve question caller context flags)
        (some outcome.2) = [] := by
      unfold Event.admitted
      split
      next hsome => exact absurd (Option.some.inj hsome) hready
      next => rfl
    rw [hnone, List.append_nil] at hperm
    exact hperm.symm

namespace Client

variable {κ : Type}

theorem enqueue_cases (client : Client κ) (question : Question)
    (flags : Flags) :
    (client.bridge.closed ∧
        (client.enqueue question flags).1 = (client.failed .clientShutdown).1) ∨
      (client.bridge.closed = false ∧ ∃ bridge,
        bridge.items = client.bridge.items ++
          [⟨question, flags, client.futures⟩] ∧
        bridge.closed = false ∧
        (client.enqueue question flags).1 =
          { client with bridge, futures := client.futures + 1 }) := by
  rw [enqueue, Bridge.produce, Bridge.push]
  by_cases hclosed : client.bridge.closed
  · rw [if_pos hclosed]
    exact .inl ⟨hclosed, rfl⟩
  · have hopen : client.bridge.closed = false := by simpa using hclosed
    rw [if_neg hclosed]
    refine .inr ⟨hopen, _, ?_, ?_, rfl⟩
    · dsimp only
      split <;> simp
    · dsimp only
      split <;> simp [hopen]

theorem closeBridge_eq (client : Client κ)
    (hended : client.bridge.closed → client.bridge.items = []) :
    ∃ bridge, bridge.items = [] ∧ bridge.closed ∧ client.closeBridge =
      { client with
        bridge
        adapter := client.adapter.abandon
          (client.bridge.items.map ClientRequest.future) } := by
  rw [closeBridge, Bridge.close]
  by_cases hclosed : client.bridge.closed
  · rw [if_pos hclosed, hended hclosed]
    exact ⟨client.bridge, hended hclosed, hclosed, rfl⟩
  · rw [if_neg hclosed]
    exact ⟨_, Bridge.notify_items _, Bridge.notify_closed _, rfl⟩

end Client

end DnsForwarder
