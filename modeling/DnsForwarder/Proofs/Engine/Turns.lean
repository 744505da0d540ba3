import DnsForwarder.Proofs.Engine.Entries
import DnsForwarder.Engine.Attempt

/-! The order in which requests are served. Requests carry the number of their
call and that of the call that began their entry; those of one entry stand in
the order of their calls, and when the entry is gone they get one answer in that
order. -/

namespace DnsForwarder

/-- A context with the number of its call and of the call that began its
entry. -/
structure Numbered (γ : Type) where
  number : Nat
  opener : Nat
  context : γ

namespace Engine

variable {κ γ : Type}

/-- Of two requests for one entry, the first one was made before and gets the
same answer. -/
def InTurn (first second : Delivery κ (Numbered γ)) : Prop :=
  first.waiter.context.opener = second.waiter.context.opener →
    first.answer = second.answer ∧ first.waiter.context.number <
      second.waiter.context.number

/-- The requests of an entry stand in the order of their calls. All calls are
below `next`, and `openers` has those that began the entries. -/
structure Queued (openers : Question → Nat) (next : Nat)
    (entry : InFlight κ (Numbered γ)) :
    Prop where
  begun : openers entry.question < next
  opener : ∀ waiter ∈ entry.waiters, waiter.context.opener =
    openers entry.question
  number : ∀ waiter ∈ entry.waiters, waiter.context.number < next
  sorted :
    entry.waiters.Pairwise fun first second => first.context.number <
      second.context.number

structure InOrder (openers : Question → Nat) (next : Nat)
    (entries : List (InFlight κ (Numbered γ)))
    (given : List (Delivery κ (Numbered γ))) : Prop where
  queued : ∀ entry ∈ entries, Queued openers next entry
  apart : (entries.map fun entry => openers entry.question).Nodup
  closed : ∀ delivery ∈ given, delivery.waiter.context.opener < next
  gone : ∀ delivery ∈ given, ∀ entry ∈ entries,
    delivery.waiter.context.opener ≠ openers entry.question
  turns : given.Pairwise InTurn

variable {openers openers' : Question → Nat} {next next' : Nat}
  {entries others kept : List (InFlight κ (Numbered γ))}
  {given : List (Delivery κ (Numbered γ))} {entry old : InFlight κ (Numbered γ)}

namespace Queued

theorem later (hqueued : Queued openers next entry) (hnext : next ≤ next')
    (hopener : openers' entry.question = openers entry.question) :
    Queued openers' next' entry where
  begun := by
    rw [hopener]
    exact Nat.lt_of_lt_of_le hqueued.begun hnext
  opener := by
    rw [hopener]
    exact hqueued.opener
  number waiter hwaiter :=
    Nat.lt_of_lt_of_le (hqueued.number waiter hwaiter) hnext
  sorted := hqueued.sorted

theorem fewer (hqueued : Queued openers next old)
    (hquestion : entry.question = old.question)
    (hsublist : entry.waiters.Sublist old.waiters) :
    Queued openers next entry where
  begun := by
    rw [hquestion]
    exact hqueued.begun
  opener waiter hwaiter := by
    rw [hquestion]
    exact hqueued.opener waiter (hsublist.subset hwaiter)
  number waiter hwaiter := hqueued.number waiter (hsublist.subset hwaiter)
  sorted := hqueued.sorted.sublist hsublist

theorem join (hqueued : Queued openers next entry) (caller : κ) (context : γ) :
    Queued openers (next + 1)
      { entry with
        waiters :=
          entry.waiters ++
          [⟨caller, next, openers entry.question, context⟩] } where
  begun := Nat.lt_succ_of_lt hqueued.begun
  opener waiter hwaiter := by
    rcases List.mem_append.mp hwaiter with hold | hnew
    · exact hqueued.opener waiter hold
    · rw [List.mem_singleton.mp hnew]
  number waiter hwaiter := by
    rcases List.mem_append.mp hwaiter with hold | hnew
    · exact Nat.lt_succ_of_lt (hqueued.number waiter hold)
    · rw [List.mem_singleton.mp hnew]
      exact Nat.lt_succ_self next
  sorted := by
    rw [List.pairwise_append]
    refine ⟨hqueued.sorted, List.pairwise_singleton _ _, ?_⟩
    intro waiter hwaiter latest hlatest
    rw [List.mem_singleton.mp hlatest]
    exact hqueued.number waiter hwaiter

theorem deliveries (hqueued : Queued openers next entry) (answer : Answer) :
    (Engine.deliveries entry.waiters answer).Pairwise InTurn := by
  rw [Engine.deliveries, List.pairwise_map]
  exact hqueued.sorted.imp fun hbefore hsame => ⟨rfl, hbefore⟩

end Queued

namespace InOrder

theorem nil :
    InOrder openers next ([] : List (InFlight κ (Numbered γ))) [] := by
  constructor <;> simp

theorem later (horder : InOrder openers next entries given)
    (hnext : next ≤ next')
    (hopeners : ∀ entry ∈ entries, openers' entry.question =
      openers entry.question) :
    InOrder openers' next' entries given where
  queued entry hentry :=
    (horder.queued entry hentry).later hnext (hopeners entry hentry)
  apart := by
    rw [List.map_congr_left hopeners]
    exact horder.apart
  closed delivery hdelivery :=
    Nat.lt_of_lt_of_le (horder.closed delivery hdelivery) hnext
  gone delivery hdelivery entry hentry := by
    rw [hopeners entry hentry]
    exact horder.gone delivery hdelivery entry hentry
  turns := horder.turns

theorem perm (horder : InOrder openers next entries given)
    (hperm : entries.Perm others) :
    InOrder openers next others given where
  queued entry hentry := horder.queued entry (hperm.mem_iff.mpr hentry)
  apart := (hperm.map _).nodup_iff.mp horder.apart
  closed := horder.closed
  gone delivery hdelivery entry hentry :=
    horder.gone delivery hdelivery entry (hperm.mem_iff.mpr hentry)
  turns := horder.turns

theorem of_map_eq (horder : InOrder openers next entries given)
    (hquestions : others.map InFlight.question = entries.map InFlight.question)
    (hqueued : ∀ entry ∈ others, Queued openers next entry) :
    InOrder openers next others given where
  queued := hqueued
  apart := by
    have happart := horder.apart
    rw [← Function.comp_def openers InFlight.question, ← List.map_map]
      at happart ⊢
    rw [hquestions]
    exact happart
  closed := horder.closed
  gone delivery hdelivery entry hentry := by
    have hquestion : entry.question ∈ entries.map InFlight.question :=
      hquestions ▸ List.mem_map_of_mem hentry
    obtain ⟨old, hold, heq⟩ := List.mem_map.mp hquestion
    rw [← heq]
    exact horder.gone delivery hdelivery old hold
  turns := horder.turns

theorem replace {front back : List (InFlight κ (Numbered γ))}
    (horder : InOrder openers next (front ++ old :: back) given)
    (hquestion : entry.question = old.question)
    (hqueued : Queued openers next entry) :
    InOrder openers next (front ++ entry :: back) given := by
  refine horder.of_map_eq (by simp [hquestion]) ?_
  intro other hother
  rcases List.mem_append.mp hother with hfront | hrest
  · exact horder.queued other (List.mem_append_left _ hfront)
  · rcases List.mem_cons.mp hrest with rfl | hback
    · exact hqueued
    · exact horder.queued other
        (List.mem_append_right _ (List.mem_cons_of_mem _ hback))

theorem opened (horder : InOrder openers next entries given)
    (hqueued : Queued openers (next + 1) entry)
    (hopener : openers entry.question = next) :
    InOrder openers (next + 1) (entry :: entries) given where
  queued other hother := by
    rcases List.mem_cons.mp hother with rfl | hother
    · exact hqueued
    · exact (horder.queued other hother).later (Nat.le_succ next) rfl
  apart := by
    rw [List.map_cons, List.nodup_cons]
    refine ⟨?_, horder.apart⟩
    rw [List.mem_map]
    rintro ⟨other, hother, heq⟩
    have hbegun := (horder.queued other hother).begun
    omega
  closed delivery hdelivery :=
    Nat.lt_succ_of_lt (horder.closed delivery hdelivery)
  gone delivery hdelivery other hother := by
    rcases List.mem_cons.mp hother with rfl | hother
    · have hclosed := horder.closed delivery hdelivery
      omega
    · exact horder.gone delivery hdelivery other hother
  turns := horder.turns

theorem give {early late : List (Delivery κ (Numbered γ))}
    (horder : InOrder openers next (others ++ kept) (early ++ late))
    (answer : InFlight κ (Numbered γ) → Answer) :
    InOrder openers next kept
      (early ++ (others.flatMap
        (fun entry => deliveries entry.waiters (answer entry)) ++
        late)) := by
  have hothers (entry : InFlight κ (Numbered γ)) (hentry : entry ∈ others) :
      Queued openers next entry :=
        horder.queued entry (List.mem_append_left _ hentry)
  have happart := horder.apart
  rw [List.map_append, List.nodup_append] at happart
  -- Whoever gets an answer now has the opener of an entry that was there until
  -- now.
  have hnew : ∀ delivery ∈
      others.flatMap (fun entry => deliveries entry.waiters (answer entry)),
      ∃ entry ∈ others, delivery.waiter.context.opener =
      openers entry.question := by
    intro delivery hdelivery
    obtain ⟨entry, hentry, hmem⟩ := List.mem_flatMap.mp hdelivery
    obtain ⟨waiter, hwaiter, rfl⟩ := List.mem_map.mp hmem
    exact ⟨entry, hentry, (hothers entry hentry).opener waiter hwaiter⟩
  have hold : ∀ delivery ∈ early ++ late, ∀ entry ∈ others,
      delivery.waiter.context.opener ≠ openers entry.question :=
    fun delivery hdelivery entry hentry =>
      horder.gone delivery hdelivery entry (List.mem_append_left _ hentry)
  have hturns :
      (others.flatMap fun entry =>
        deliveries entry.waiters (answer entry)).Pairwise
      InTurn := by
    rw [List.pairwise_flatMap]
    refine ⟨fun entry hentry => (hothers entry hentry).deliveries _, ?_⟩
    have hdistinct := List.pairwise_map.mp happart.1
    refine hdistinct.imp_of_mem ?_
    intro first second hfirst hsecond hne delivery hdelivery other hother hsame
    obtain ⟨waiter, hwaiter, rfl⟩ := List.mem_map.mp hdelivery
    obtain ⟨rival, hrival, rfl⟩ := List.mem_map.mp hother
    rw [(hothers first hfirst).opener waiter hwaiter,
      (hothers second hsecond).opener rival hrival] at hsame
    exact absurd hsame hne
  have hcases (delivery : Delivery κ (Numbered γ))
      (hdelivery : delivery ∈ early ++
      (others.flatMap (fun entry => deliveries entry.waiters (answer entry)) ++
        late)) :
      delivery ∈ early ++ late ∨
        ∃ entry ∈ others, delivery.waiter.context.opener =
        openers entry.question := by
    rcases List.mem_append.mp hdelivery with hearly | hrest
    · exact .inl (List.mem_append_left _ hearly)
    · rcases List.mem_append.mp hrest with hmem | hlate
      · exact .inr (hnew delivery hmem)
      · exact .inl (List.mem_append_right _ hlate)
  refine ⟨fun entry hentry =>
    horder.queued entry (List.mem_append_right _ hentry),
    happart.2.1, ?_, ?_, ?_⟩
  · intro delivery hdelivery
    rcases hcases delivery hdelivery with hmem | ⟨entry, hentry, hopener⟩
    · exact horder.closed delivery hmem
    · rw [hopener]
      exact (hothers entry hentry).begun
  · intro delivery hdelivery entry hentry
    rcases hcases delivery hdelivery with hmem | ⟨other, hother, hopener⟩
    · exact horder.gone delivery hmem entry (List.mem_append_right _ hentry)
    · rw [hopener]
      exact happart.2.2 _ (List.mem_map_of_mem hother) _
        (List.mem_map_of_mem hentry)
  · obtain ⟨hearly, hlate, hboth⟩ := List.pairwise_append.mp horder.turns
    refine List.pairwise_append.mpr
      ⟨hearly, List.pairwise_append.mpr ⟨hturns, hlate, ?_⟩, ?_⟩
    · intro delivery hdelivery other hother hsame
      obtain ⟨entry, hentry, hopener⟩ := hnew delivery hdelivery
      exact absurd (hsame.symm.trans hopener)
        (hold other (List.mem_append_right _ hother) entry hentry)
    · intro delivery hdelivery other hother
      rcases List.mem_append.mp hother with hmem | hmem
      · intro hsame
        obtain ⟨entry, hentry, hopener⟩ := hnew other hmem
        exact absurd (hsame.trans hopener)
          (hold delivery (List.mem_append_left _ hdelivery) entry hentry)
      · exact hboth delivery hdelivery other hmem

end InOrder

end Engine

end DnsForwarder
