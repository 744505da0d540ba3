import DnsForwarder.Engine.Attempt
import DnsForwarder.Engine.Lifecycle
import DnsForwarder.Engine.Resolve
import Mathlib.Data.List.Basic
import Mathlib.Data.List.Induction
import Mathlib.Data.List.Nodup

/-! The table of questions under way. It has one entry for a question, so a
look-up splits it into the entries in front, the entry itself and the entries
behind; the operations that change the table are stated on such a split. -/

namespace DnsForwarder.Engine

variable {κ γ : Type} {engine : Engine κ γ} {question : Question}
  {entry : InFlight κ γ}

/-- No question has two entries. -/
def Keyed (engine : Engine κ γ) : Prop :=
  (engine.inFlight.map InFlight.question).Nodup

theorem entry?_question (hentry : engine.entry? question = some entry) :
    entry.question = question := by
  simpa using List.find?_some hentry

theorem entry?_mem (hentry : engine.entry? question = some entry) :
    entry ∈ engine.inFlight :=
  List.mem_of_find?_eq_some hentry

theorem entry?_eq_none_iff :
    engine.entry? question = none ↔ ∀ entry ∈ engine.inFlight, entry.question ≠
      question := by
  simp [Engine.entry?]

theorem putEntry_inFlight_of_none
    (hentry : engine.entry? entry.question = none) :
    (engine.putEntry entry).inFlight = engine.inFlight ++ [entry] := by
  simp [putEntry, hentry]

theorem putEntry_inFlight_of_some {old : InFlight κ γ}
    (hentry : engine.entry? entry.question = some old) :
    (engine.putEntry entry).inFlight =
      engine.inFlight.map fun old =>
        if old.question == entry.question then entry else old := by
  simp [putEntry, hentry]

/-- A table around one of its entries. -/
structure Split (entries : List (InFlight κ γ)) (entry : InFlight κ γ)
    (front back : List (InFlight κ γ)) : Prop where
  eq : entries = front ++ entry :: back
  ne_of_mem : ∀ other ∈ front ++ back, other.question ≠ entry.question

theorem Keyed.split (hkeyed : engine.Keyed)
    (hentry : engine.entry? question = some entry) :
    ∃ front back, Split engine.inFlight entry front back := by
  obtain ⟨front, back, heq⟩ := List.append_of_mem (entry?_mem hentry)
  refine ⟨front, back, heq, ?_⟩
  intro other hother hsame
  rw [Keyed, heq, List.map_append, List.map_cons, List.nodup_middle,
    List.nodup_cons] at hkeyed
  apply hkeyed.1
  rw [← List.map_append, ← hsame]
  exact List.mem_map_of_mem hother

theorem Keyed.entry?_of_mem (hkeyed : engine.Keyed)
    (hmem : entry ∈ engine.inFlight) :
    engine.entry? entry.question = some entry := by
  obtain ⟨found, hfound⟩ : ∃ found, engine.entry? entry.question =
    some found := by
    rw [← Option.ne_none_iff_exists', Ne, entry?_eq_none_iff]
    intro hnone
    exact hnone entry hmem rfl
  have heq : found = entry :=
    List.inj_on_of_nodup_map hkeyed (entry?_mem hfound) hmem
      (entry?_question hfound)
  rw [hfound, heq]

namespace Split

variable {front back : List (InFlight κ γ)}

theorem perm {entries : List (InFlight κ γ)}
    (hsplit : Split entries entry front back) :
    entries.Perm (entry :: (front ++ back)) :=
  (List.Perm.of_eq hsplit.eq).trans List.perm_middle

theorem entry?_eq (hsplit : Split engine.inFlight entry front back) :
    engine.entry? entry.question = some entry := by
  have hfront :
      front.find? (fun other => other.question == entry.question) = none := by
    rw [List.find?_eq_none]
    intro other hother
    simpa using hsplit.ne_of_mem other (List.mem_append_left _ hother)
  simp [Engine.entry?, hsplit.eq, List.find?_append, hfront]

theorem putEntry_inFlight (hsplit : Split engine.inFlight entry front back)
    {changed : InFlight κ γ} (hsame : changed.question = entry.question) :
    (engine.putEntry changed).inFlight = front ++ changed :: back := by
  have keep : ∀ others :
      List (InFlight κ γ), (∀ other ∈ others, other.question ≠ entry.question) →
      others.map (fun old =>
        if old.question == entry.question then changed else old) = others := by
    intro others hothers
    conv => rhs; rw [← List.map_id others]
    apply List.map_congr_left
    intro other hother
    simp [hothers other hother]
  have hfront := keep front fun other hother =>
    hsplit.ne_of_mem other (List.mem_append_left _ hother)
  have hback := keep back fun other hother =>
    hsplit.ne_of_mem other (List.mem_append_right _ hother)
  have hold : engine.entry? changed.question = some entry := by
    rw [hsame, hsplit.entry?_eq]
  rw [putEntry_inFlight_of_some hold, hsplit.eq, List.map_append, List.map_cons,
    hsame, hfront, hback]
  simp

theorem dropEntry_inFlight (hsplit : Split engine.inFlight entry front back) :
    (engine.dropEntry entry.question).inFlight = front ++ back := by
  have hothers :
      (front ++ back).filter (fun other => other.question != entry.question) =
      front ++ back := by
    rw [List.filter_eq_self]
    intro other hother
    simpa using hsplit.ne_of_mem other hother
  rw [List.filter_append] at hothers
  simp [dropEntry, hsplit.eq, List.filter_append, hothers]

theorem join_inFlight (hsplit : Split engine.inFlight entry front back)
    (waiter : Waiter κ γ) :
    (engine.join entry waiter).inFlight =
      front ++ { entry with waiters := entry.waiters ++ [waiter] } :: back :=
  hsplit.putEntry_inFlight (by rfl)

theorem launch_inFlight (hsplit : Split engine.inFlight entry front back)
    (now : Nat) {changed : InFlight κ γ}
    (hsame : changed.question = entry.question) :
    (engine.launch now changed).inFlight =
      front ++ { changed with generation := engine.generations + 1 } ::
        back := by
  have hretired :
      Split (engine.retire changed.generation).inFlight entry front back :=
      hsplit
  exact hretired.putEntry_inFlight hsame

theorem settle_inFlight (hsplit : Split engine.inFlight entry front back)
    (now : Nat) (answer : Answer) :
    (engine.settle now entry answer).1.inFlight = front ++ back := by
  have hretired :
      Split (engine.retire entry.generation).inFlight entry front back := hsplit
  exact hretired.dropEntry_inFlight

end Split

theorem launch_inFlight_of_none (hentry : engine.entry? entry.question = none)
    (now : Nat) :
    (engine.launch now entry).inFlight =
      engine.inFlight ++
        [{ entry with generation := engine.generations + 1 }] := by
  have hretired :
      Engine.entry? (engine.retire entry.generation) entry.question = none :=
      hentry
  exact putEntry_inFlight_of_none hretired

section LookUp

variable (engine : Engine κ γ) (entry : InFlight κ γ) (question : Question)
  (now : Nat)

theorem entry?_putEntry :
    Engine.entry? (engine.putEntry entry) question =
      if entry.question = question then some entry
      else engine.entry? question := by
  cases hold : engine.entry? entry.question with
  | none =>
      rw [Engine.entry?, putEntry_inFlight_of_none hold, List.find?_append]
      by_cases hsame : entry.question = question
      · subst hsame
        rw [Engine.entry?] at hold
        simp [hold]
      · simp [hsame, Engine.entry?]
  | some old =>
      let put (other : InFlight κ γ) : InFlight κ γ :=
        if other.question == entry.question then entry else other
      have hput (other : InFlight κ γ) :
          (put other).question = other.question := by
        by_cases hother : other.question = entry.question <;> simp [put, hother]
      have hfound : Engine.entry? (engine.putEntry entry) question =
          (engine.entry? question).map put := by
        rw [Engine.entry?, putEntry_inFlight_of_some hold, List.find?_map,
          Engine.entry?]
        simp only [Function.comp_def, hput, put]
      rw [hfound]
      by_cases hsame : entry.question = question
      · subst hsame
        simp [hold, put, entry?_question hold]
      · cases hother : engine.entry? question with
        | none => simp [hsame]
        | some other =>
            have hdifferent : other.question ≠ entry.question := by
              rw [entry?_question hother]
              exact Ne.symm hsame
            simp [hsame, put, hdifferent]

theorem entry?_dropEntry (dropped : Question) :
    Engine.entry? (engine.dropEntry dropped) question =
      if dropped = question then none else engine.entry? question := by
  simp only [dropEntry, Engine.entry?, List.find?_filter]
  by_cases hsame : dropped = question
  · simp [hsame]
  · rw [if_neg hsame]
    congr 1
    funext other
    by_cases hother : other.question = question
    · simp [hother, Ne.symm hsame]
    · simp [hother]

theorem entry?_launch :
    Engine.entry? (engine.launch now entry) question =
      if entry.question = question then
        some { entry with generation := engine.generations + 1 }
      else engine.entry? question :=
  entry?_putEntry (engine.retire entry.generation) _ question

theorem entry?_settle (answer : Answer) :
    Engine.entry? (engine.settle now entry answer).1 question =
      if entry.question = question then none else engine.entry? question :=
  entry?_dropEntry (engine.retire entry.generation) question entry.question

theorem entry?_cancel [DecidableEq κ] (caller : κ) :
    Engine.entry? (engine.cancel caller).1 question =
      (engine.entry? question).map fun entry =>
        { entry with
          waiters := entry.waiters.filter fun waiter =>
            waiter.caller ≠ caller } := by
  exact List.find?_map ..

end LookUp

section Frame

variable (engine : Engine κ γ) (entry : InFlight κ γ) (question : Question)

@[simp] theorem putEntry_settings :
    (engine.putEntry entry).settings = engine.settings := by
  unfold putEntry; split <;> rfl

@[simp] theorem putEntry_ids : (engine.putEntry entry).ids = engine.ids := by
  unfold putEntry; split <;> rfl

@[simp] theorem putEntry_started :
    (engine.putEntry entry).started = engine.started := by
  unfold putEntry; split <;> rfl

@[simp] theorem putEntry_generations :
    (engine.putEntry entry).generations = engine.generations := by
  unfold putEntry; split <;> rfl

@[simp] theorem putEntry_nextServer :
    (engine.putEntry entry).nextServer = engine.nextServer := by
  unfold putEntry; split <;> rfl

@[simp] theorem putEntry_counters :
    (engine.putEntry entry).counters = engine.counters := by
  unfold putEntry; split <;> rfl

@[simp] theorem putEntry_exchanges :
    (engine.putEntry entry).exchanges = engine.exchanges := by
  unfold putEntry; split <;> rfl

@[simp] theorem putEntry_alarms :
    (engine.putEntry entry).alarms = engine.alarms := by
  unfold putEntry; split <;> rfl

variable (generation now : Nat)

@[simp] theorem retire_settings :
    (engine.retire generation).settings = engine.settings := rfl

@[simp] theorem retire_generations :
    (engine.retire generation).generations = engine.generations := rfl

@[simp] theorem launch_settings :
    (engine.launch now entry).settings = engine.settings := by
  simp [launch]

@[simp] theorem launch_ids : (engine.launch now entry).ids = engine.ids := by
  simp [launch, retire]

@[simp] theorem launch_started :
    (engine.launch now entry).started = engine.started := by
  simp [launch, retire]

@[simp] theorem launch_nextServer :
    (engine.launch now entry).nextServer = engine.nextServer := by
  simp [launch, retire]

@[simp] theorem launch_counters : (engine.launch now entry).counters =
    { engine.counters with
      queriesSent := engine.counters.queriesSent + 1 } := by
  simp [launch, retire]

@[simp] theorem settle_settings (answer : Answer) :
    (engine.settle now entry answer).1.settings = engine.settings := rfl

@[simp] theorem settle_ids (answer : Answer) :
    (engine.settle now entry answer).1.ids = engine.ids := rfl

end Frame

end DnsForwarder.Engine
