import DnsForwarder.Proofs.Engine.Life
import Mathlib.Algebra.GroupWithZero.Nat

/-! The turnover of entries in a step: which ones it makes, and what becomes of
those that were there. A measure counts something of what becomes of an entry;
over a step it is summed up for all entries. -/

namespace DnsForwarder.Engine

variable {κ γ : Type}

/-- A number for what becomes of an entry, with nothing for a change of those
who wait. -/
structure Measure (κ γ : Type) where
  amount : InFlight κ γ → Option (InFlight κ γ) → Nat
  still : ∀ entry waiters, amount entry (some { entry with waiters }) = 0

namespace Measure

def retries : Measure κ γ where
  amount entry later? := later?.elim 0 fun later =>
    later.retriesDone - entry.retriesDone
  still _ _ := Nat.sub_self _

/-- The attempts that go over TCP where the one before went over UDP, at no cost
of a retry. -/
def escalations : Measure κ γ where
  amount entry later? := later?.elim 0 fun later =>
    if later.retriesDone = entry.retriesDone ∧ entry.protocol = .udp ∧
      later.protocol = .tcp then 1
    else 0
  still entry waiters := by cases entry.protocol <;> simp

def departures : Measure κ γ where
  amount _ later? := later?.isNone.toNat
  still _ _ := rfl

end Measure

def Step.created (step : Step κ γ) : List (InFlight κ γ) :=
  step.after.inFlight.filter fun entry =>
    (step.before.entry? entry.question).isNone

def Measure.sumOver (measure : Measure κ γ) (step : Step κ γ)
    (entries : List (InFlight κ γ)) : Nat :=
  (entries.map fun entry =>
    measure.amount entry (step.after.entry? entry.question)).sum

def Step.total (step : Step κ γ) (measure : Measure κ γ) : Nat :=
  measure.sumOver step step.before.inFlight

def Step.Keeps (step : Step κ γ) (entry : InFlight κ γ) : Prop :=
  ∃ waiters, step.after.entry? entry.question = some { entry with waiters }

variable {step : Step κ γ} {entry : InFlight κ γ}
  {entries front back : List (InFlight κ γ)}

section Totals

variable (measure : Measure κ γ)

theorem Measure.sumOver_eq_zero (hkeeps : ∀ entry ∈ entries, step.Keeps entry) :
    measure.sumOver step entries = 0 := by
  induction entries with
  | nil => rfl
  | cons entry entries ih =>
      obtain ⟨⟨waiters, hlater⟩, hothers⟩ := List.forall_mem_cons.mp hkeeps
      rw [sumOver, List.map_cons, List.sum_cons, hlater, measure.still,
        Nat.zero_add]
      exact ih hothers

theorem Step.total_of_keeps
    (hkeeps : ∀ entry ∈ step.before.inFlight, step.Keeps entry) :
    step.total measure = 0 :=
  measure.sumOver_eq_zero hkeeps

theorem Step.total_of_split
    (hsplit : Split step.before.inFlight entry front back)
    (hkeeps : ∀ other ∈ front ++ back, step.Keeps other) :
    step.total measure =
      measure.amount entry (step.after.entry? entry.question) := by
  obtain ⟨hfront, hback⟩ := List.forall_mem_append.mp hkeeps
  have hzero := measure.sumOver_eq_zero hfront
  have hnone := measure.sumOver_eq_zero hback
  rw [Measure.sumOver] at hzero hnone
  rw [total, Measure.sumOver, hsplit.eq, List.map_append, List.map_cons,
    List.sum_append, List.sum_cons, hzero, hnone, Nat.zero_add, Nat.add_zero]

theorem Step.total_of_none
    (hnone : ∀ question, Engine.entry? step.after question = none) :
    step.total measure =
      (step.before.inFlight.map fun entry =>
        measure.amount entry none).sum := by
  simp only [total, Measure.sumOver, hnone]

end Totals

theorem Step.created_eq_nil
    (hquestions : step.after.inFlight.map InFlight.question ⊆
      step.before.inFlight.map InFlight.question) : step.created = [] := by
  rw [created, List.filter_eq_nil_iff]
  intro entry hentry hnone
  obtain ⟨old, hold, hsame⟩ :=
    List.mem_map.mp (hquestions (List.mem_map_of_mem hentry))
  exact entry?_eq_none_iff.mp (Option.isNone_iff_eq_none.mp hnone)
    old hold hsame

theorem Step.created_of_append
    (hafter : step.after.inFlight = step.before.inFlight ++ [entry])
    (hnone : step.before.entry? entry.question = none) :
    step.created = [entry] := by
  have hold : step.before.inFlight.filter
      (fun entry => (step.before.entry? entry.question).isNone) = [] := by
    rw [List.filter_eq_nil_iff]
    intro old hold hfresh
    exact entry?_eq_none_iff.mp (Option.isNone_iff_eq_none.mp hfresh)
      old hold rfl
  rw [created, hafter, List.filter_append, hold, List.filter_singleton, hnone]
  rfl

def firstEntry (engine : Engine κ γ) (question : Question) (query : Octets)
    (waiter : Waiter κ γ) : InFlight κ γ :=
  { engine.newEntry question query waiter with
    generation := engine.generations + 1 }

section Opened

variable {asked : Question} {cache : AnswerCache} {query : Octets}
  {waiter : Waiter κ γ} {now : Nat} (hentry : step.before.entry? asked = none)
  (hafter : step.after =
    { step.before with cache }.openEntry now asked query waiter)
include hentry hafter

theorem Step.inFlight_of_opened :
    step.after.inFlight = step.before.inFlight ++
      [step.before.firstEntry asked query waiter] := by
  have hfresh : Engine.entry? (Engine.turned { step.before with cache })
      (Engine.newEntry { step.before with cache } asked query waiter).question =
      none := hentry
  rw [hafter, openEntry_eq, launch_inFlight_of_none hfresh]
  rfl

theorem Step.created_of_opened :
    step.created = [step.before.firstEntry asked query waiter] :=
  created_of_append (inFlight_of_opened hentry hafter) hentry

omit hentry in
theorem Step.launched_of_opened (harmed : step.before.Armed) :
    step.launched = [(step.before.firstEntry asked query waiter).exchange] := by
  rw [launched, hafter, openEntry_eq]
  refine launchedSince_launch harmed ?_ ?_ now
  · exact List.Subset.refl _
  · rfl

end Opened

section Kept

variable {asked : Question} {cache : AnswerCache} {waiter : Waiter κ γ}

theorem Keyed.keeps_of_map (hkeyed : step.before.Keyed)
    (waiters : InFlight κ γ → List (Waiter κ γ))
    (hafter : ∀ question, Engine.entry? step.after question =
      (step.before.entry? question).map fun entry =>
        { entry with waiters := waiters entry }) :
    ∀ entry ∈ step.before.inFlight, step.Keeps entry := by
  intro entry hentry
  refine ⟨waiters entry, ?_⟩
  rw [hafter, hkeyed.entry?_of_mem hentry]
  rfl

theorem Keyed.keeps_of_same (hkeyed : step.before.Keyed)
    (hafter : step.after.inFlight = step.before.inFlight) :
    ∀ entry ∈ step.before.inFlight, step.Keeps entry := by
  intro entry hentry
  have hafterKeyed : step.after.Keyed := by
    rw [Keyed, hafter]
    exact hkeyed
  exact ⟨entry.waiters, hafterKeyed.entry?_of_mem (hafter ▸ hentry)⟩

theorem Keyed.keeps_of_joined (hkeyed : step.before.Keyed)
    (hentry : step.before.entry? asked = some entry)
    (hafter : step.after = { step.before with cache }.join entry waiter) :
    ∀ other ∈ step.before.inFlight, step.Keeps other := by
  intro other hother
  have hfound : Engine.entry? step.after other.question =
      if entry.question = other.question then
        some { entry with waiters := entry.waiters ++ [waiter] }
      else step.before.entry? other.question := by
    rw [hafter]
    exact entry?_putEntry { step.before with cache } _ other.question
  by_cases hsame : entry.question = other.question
  · obtain rfl : entry = other := by
      have hother' := hkeyed.entry?_of_mem hother
      rw [← hsame, hkeyed.entry?_of_mem (entry?_mem hentry)] at hother'
      exact Option.some.inj hother'
    exact ⟨_, hfound.trans (if_pos rfl)⟩
  · exact ⟨_, hfound.trans ((if_neg hsame).trans (hkeyed.entry?_of_mem hother))⟩

theorem Keyed.keeps_of_opened (hkeyed : step.before.Keyed)
    (hentry : step.before.entry? asked = none) {now : Nat} {query : Octets}
    (hafter : step.after =
      { step.before with cache }.openEntry now asked query waiter) :
    ∀ other ∈ step.before.inFlight, step.Keeps other := by
  intro other hother
  have hdifferent : asked ≠ other.question :=
    fun hsame => entry?_eq_none_iff.mp hentry other hother hsame.symm
  refine ⟨other.waiters, ?_⟩
  rw [hafter, openEntry_eq]
  refine (entry?_launch _ _ other.question now).trans
    ((if_neg hdifferent).trans ?_)
  exact hkeyed.entry?_of_mem hother

theorem Keyed.keeps_of_proceeded (hkeyed : step.before.Keyed)
    (hsplit : Split step.before.inFlight entry front back)
    {now generation : Nat} {ending : AttemptEnd} {sequel : Sequel}
    (hafter : step.after =
      ((step.before.afterEnd generation ending).proceed now entry sequel).1) :
    ∀ other ∈ front ++ back, step.Keeps other := by
  intro other hother
  refine ⟨other.waiters, ?_⟩
  rw [hafter, entry?_proceed_of_ne (hsplit.ne_of_mem other hother).symm]
  exact hkeyed.entry?_of_mem
    (hsplit.perm.mem_iff.mpr (List.mem_cons_of_mem _ hother))

/-- When an attempt ends, only its entry counts. -/
theorem Keyed.total_of_proceeded (hkeyed : step.before.Keyed)
    (measure : Measure κ γ)
    (hsplit : Split step.before.inFlight entry front back)
    {now generation : Nat} {ending : AttemptEnd} {sequel : Sequel}
    (hafter : step.after =
      ((step.before.afterEnd generation ending).proceed now entry sequel).1) :
    step.total measure =
      measure.amount entry (step.after.entry? entry.question) :=
  step.total_of_split measure hsplit (hkeyed.keeps_of_proceeded hsplit hafter)

end Kept

structure Step.Still (step : Step κ γ) : Prop where
  created : step.created = []
  total : ∀ measure, step.total measure = 0
  length : step.after.inFlight.length = step.before.inFlight.length

theorem Keyed.still_of_same (hkeyed : step.before.Keyed)
    (hafter : step.after.inFlight = step.before.inFlight) : step.Still where
  created := Step.created_eq_nil (hafter ▸ List.Subset.refl _)
  total measure := step.total_of_keeps measure (hkeyed.keeps_of_same hafter)
  length := congrArg List.length hafter

theorem Keyed.still_of_joined (hkeyed : step.before.Keyed) {asked : Question}
    {cache : AnswerCache} {waiter : Waiter κ γ}
    (hentry : step.before.entry? asked = some entry)
    (hafter : step.after = { step.before with cache }.join entry waiter) :
    step.Still := by
  obtain ⟨front, back, hsplit⟩ := hkeyed.split hentry
  have hsplit' :
      Split (Engine.inFlight { step.before with cache }) entry front back :=
      hsplit
  have hinFlight : step.after.inFlight =
      front ++ { entry with waiters := entry.waiters ++ [waiter] } :: back := by
    rw [hafter, hsplit'.join_inFlight]
  refine ⟨Step.created_eq_nil ?_, fun measure => ?_, ?_⟩
  · rw [hinFlight, hsplit.eq, List.map_append, List.map_append]
    exact List.Subset.refl _
  · exact step.total_of_keeps measure (hkeyed.keeps_of_joined hentry hafter)
  · rw [hinFlight, hsplit.eq, List.length_append, List.length_append]
    rfl

theorem Keyed.still_of_cancelled [DecidableEq κ] (hkeyed : step.before.Keyed)
    {caller : κ} (hafter : step.after = (step.before.cancel caller).1) :
    step.Still where
  created := Step.created_eq_nil (by simp [hafter, cancel, Function.comp_def])
  total measure :=
    step.total_of_keeps measure (hkeyed.keeps_of_map _ fun question => by
      rw [hafter, entry?_cancel])
  length := by simp [hafter, cancel]

theorem Step.created_of_proceeded
    (hsplit : Split step.before.inFlight entry front back)
    {now generation : Nat} {ending : AttemptEnd} {sequel : Sequel}
    (hafter : step.after =
      ((step.before.afterEnd generation ending).proceed now entry sequel).1) :
    step.created = [] := by
  have hsplit' :
      Split (step.before.afterEnd generation ending).inFlight entry front
      back := hsplit
  apply Step.created_eq_nil
  cases sequel with
  | again server protocol retriesDone =>
      rw [hafter, proceed, hsplit'.launch_inFlight now (by rfl), hsplit.eq,
        List.map_append, List.map_append]
      exact List.Subset.refl _
  | answered answer =>
      rw [hafter, proceed, hsplit'.settle_inFlight, hsplit.eq, List.map_append,
        List.map_append, List.map_cons]
      simp

end DnsForwarder.Engine
