import DnsForwarder.Proofs.Engine.Run
import DnsForwarder.Simulation.World

/-! What a simulated world does next: the first thing that is due, or the first
query that has not gone out. -/

namespace DnsForwarder.Simulation

namespace Due

variable {left middle right : Due}

theorem before_iff : left.before right = true ↔
    left.time < right.time ∨ left.time = right.time ∧
      left.generation ≤ right.generation := by
  simp [before]

theorem before_trans (hleft : left.before middle = true)
    (hright : middle.before right = true) :
    left.before right = true := by
  rw [before_iff] at *
  omega

theorem before_total (hnot : left.before right = false) :
    right.before left = true := by
  rw [← Bool.not_eq_true, before_iff] at hnot
  rw [before_iff]
  omega

theorem time_le (hbefore : left.before right = true) :
    left.time ≤ right.time := by
  rw [before_iff] at hbefore
  omega

/-- The one of two that comes first. Of equals it is the one that stands
first. -/
def sooner (best due : Due) : Due :=
  if best.before due then best else due

/-- Whatever stands in front of the choice comes after it, and nothing behind it
comes before it. -/
structure Choice (front : List Due) (choice : Due) (back : List Due) :
    Prop where
  front : ∀ due ∈ front, due.before choice = false
  back : ∀ due ∈ back, choice.before due = true

theorem Choice.time_le {front back : List Due} {choice due : Due}
    (hchoice : Choice front choice back)
    (hdue : due ∈ front ++ choice :: back) :
    choice.time ≤ due.time := by
  rcases List.mem_append.mp hdue with hfront | hrest
  · exact Due.time_le (before_total (hchoice.front due hfront))
  · rcases List.mem_cons.mp hrest with rfl | hback
    · exact Nat.le_refl _
    · exact Due.time_le (hchoice.back due hback)

theorem foldl_sooner {first choice : Due} {rest : List Due}
    (hfold : rest.foldl sooner first = choice) :
    ∃ front back, first :: rest = front ++ choice :: back ∧
      Choice front choice back := by
  induction rest generalizing first with
  | nil =>
      cases hfold
      exact ⟨[], [], rfl, List.forall_mem_nil _, List.forall_mem_nil _⟩
  | cons next rest ih =>
      rw [List.foldl_cons, sooner] at hfold
      cases hbefore : first.before next with
      | true =>
          rw [hbefore, if_pos rfl] at hfold
          obtain ⟨front, back, hsplit, hfront, hback⟩ := ih hfold
          cases front with
          | nil =>
              obtain ⟨rfl, rfl⟩ := List.cons.inj hsplit
              exact ⟨[], next :: rest, rfl, List.forall_mem_nil _,
                List.forall_mem_cons.mpr ⟨hbefore, hback⟩⟩
          | cons head front =>
              -- Had `next` come before the choice, so would have `first`.
              obtain ⟨rfl, rfl⟩ := List.cons.inj hsplit
              obtain ⟨hfirst, hothers⟩ := List.forall_mem_cons.mp hfront
              refine ⟨first :: next :: front, back, rfl, ?_, hback⟩
              refine List.forall_mem_cons.mpr
                ⟨hfirst, List.forall_mem_cons.mpr ⟨?_, hothers⟩⟩
              by_contra hnext
              rw [before_trans hbefore (by simpa using hnext)] at hfirst
              cases hfirst
      | false =>
          rw [hbefore, if_neg Bool.false_ne_true] at hfold
          obtain ⟨front, back, hsplit, hfront, hback⟩ := ih hfold
          refine ⟨first :: front, back, by rw [hsplit]; rfl, ?_, hback⟩
          refine List.forall_mem_cons.mpr ⟨?_, hfront⟩
          cases front with
          | nil =>
              obtain ⟨rfl, -⟩ := List.cons.inj hsplit
              exact hbefore
          | cons head front =>
              obtain ⟨rfl, -⟩ := List.cons.inj hsplit
              have hlate := before_total (hfront next List.mem_cons_self)
              by_contra hfirst
              rw [before_trans (by simpa using hfirst) hlate] at hbefore
              cases hbefore

def question : Due → Question
  | .result arrival => arrival.question
  | .ring alarm => alarm.question

def ending : Due → AttemptEnd
  | .result arrival => .result arrival.result
  | .ring _ => .alarm

def leaves (due : Due) (arrivals : List Arrival) : List Arrival :=
  match due with
  | .result arrival =>
      arrivals.filter fun other => other.generation != arrival.generation
  | .ring _ => arrivals

theorem mem_leaves {due : Due} {arrivals : List Arrival} {arrival : Arrival}
    (hmem : arrival ∈ due.leaves arrivals) : arrival ∈ arrivals := by
  cases due with
  | result => exact List.mem_of_mem_filter hmem
  | ring => exact hmem

theorem mem_leaves_of_ne {due : Due} {arrivals : List Arrival}
    {arrival : Arrival} (hmem : arrival ∈ arrivals)
    (hother : arrival.generation ≠ due.generation) :
    arrival ∈ due.leaves arrivals := by
  cases due with
  | result => exact List.mem_filter.mpr ⟨hmem, bne_iff_ne.mpr hother⟩
  | ring => exact hmem

end Due

inductive Task where
  | meet (due : Due)
  | send (exchange : Exchange)

namespace World

variable {κ γ σ : Type} {world next : World κ γ σ} {host : Host κ γ σ}
  {limit : Nat} {due : Due} {exchange : Exchange}

theorem mem_dues : due ∈ world.dues ↔
    (∃ arrival ∈ world.arrivals, (∃ exchange ∈ world.engine.exchanges,
      exchange.generation = arrival.generation) ∧ due = .result arrival) ∨
    ∃ alarm ∈ world.engine.alarms, due = .ring alarm := by
  simp only [dues, List.mem_append, List.mem_map, List.mem_filter,
    List.any_eq_true, beq_iff_eq, and_assoc, @eq_comm _ due]

/-- What is due by some time, of the attempts whose queries have gone out. -/
def near (world : World κ γ σ) (limit : Nat) : List Due :=
  world.dues.filter fun due => due.time ≤ limit && due.generation ≤ world.begun

theorem mem_near : due ∈ world.near limit ↔
    due ∈ world.dues ∧ due.time ≤ limit ∧ due.generation ≤ world.begun := by
  simp [near]

theorem nextDue?_eq_none (hnone : world.nextDue? limit = none)
    (hdue : due ∈ world.dues) (hsent : due.generation ≤ world.begun) :
    limit < due.time := by
  by_contra htime
  have hnear : due ∈ world.near limit :=
    mem_near.mpr ⟨hdue, Nat.le_of_not_lt htime, hsent⟩
  rw [nextDue?, ← near] at hnone
  split at hnone
  next hnil =>
    rw [hnil] at hnear
    cases hnear
  next => cases hnone

theorem nextDue?_split (hnext : world.nextDue? limit = some due) :
    ∃ front back, world.near limit = front ++ due :: back ∧
      Due.Choice front due back := by
  rw [nextDue?, ← near] at hnext
  split at hnext
  next => cases hnext
  next first rest hnear =>
    cases hnext
    rw [hnear]
    exact Due.foldl_sooner rfl

theorem near_sorted (world : World κ γ σ) (limit : Nat) :
    (world.near limit).Pairwise fun left right =>
      ∀ alarm arrival, left = .ring alarm → right ≠ .result arrival := by
  refine List.Pairwise.filter _ (List.pairwise_append.mpr ⟨?_, ?_, ?_⟩)
  · refine List.pairwise_map.mpr
      (List.pairwise_of_forall fun first second => ?_)
    intro alarm arrival hring
    cases hring
  · refine List.pairwise_map.mpr
      (List.pairwise_of_forall fun first second => ?_)
    intro alarm arrival _ hresult
    cases hresult
  · intro left hleft right hright alarm arrival hring hresult
    obtain ⟨other, -, rfl⟩ := List.mem_map.mp hleft
    cases hring

/-- Something is due, nothing else is due before it, and no query had to go out
before the clock moved on to it. -/
structure Ready (world : World κ γ σ) (limit : Nat) (due : Due) : Prop where
  mem : due ∈ world.dues
  time_le : due.time ≤ limit
  sent : due.generation ≤ world.begun
  least : ∀ other ∈ world.dues, other.generation ≤ world.begun →
    due.time ≤ other.time
  alone : ∀ alarm arrival, due = .ring alarm → .result arrival ∈ world.dues →
    arrival.generation = alarm.generation → alarm.due < arrival.due
  patient : world.now < due.time → world.unsent? = none

theorem ready_of_nextDue? (hnext : world.nextDue? limit = some due)
    (hpatient : world.now < due.time → world.unsent? = none) :
    world.Ready limit due := by
  obtain ⟨front, back, hsplit, hchoice⟩ := nextDue?_split hnext
  have hmem : due ∈ world.near limit :=
    hsplit ▸ List.mem_append_right _ List.mem_cons_self
  obtain ⟨hdue, htime, hsent⟩ := mem_near.mp hmem
  refine ⟨hdue, htime, hsent, ?_, ?_, hpatient⟩
  · intro other hother hgone
    by_cases hnear : other.time ≤ limit
    · exact hchoice.time_le (hsplit ▸ mem_near.mpr ⟨hother, hnear, hgone⟩)
    · omega
  · rintro alarm arrival rfl harrival hgeneration
    by_cases hnear : arrival.due ≤ limit
    · -- The result stands in front of its alarm, so it was passed over for it.
      have hresult : .result arrival ∈ front ++ .ring alarm :: back :=
        hsplit ▸ mem_near.mpr
          ⟨harrival, hnear, Nat.le_trans (Nat.le_of_eq hgeneration) hsent⟩
      have hsorted := hsplit ▸ near_sorted world limit
      have hfront : .result arrival ∈ front := by
        rcases List.mem_append.mp hresult with hfront | hrest
        · exact hfront
        · rcases List.mem_cons.mp hrest with hsame | hback
          · cases hsame
          · have hbehind :=
              List.rel_of_pairwise_cons
                (List.pairwise_append.mp hsorted).2.1 hback
            exact absurd rfl (hbehind alarm arrival rfl)
      have hlate := hchoice.front _ hfront
      rw [← Bool.not_eq_true, Due.before_iff] at hlate
      simp only [Due.time, Due.generation, hgeneration] at hlate
      omega
    · exact Nat.lt_of_le_of_lt htime (Nat.lt_of_not_le hnear)

def task? (world : World κ γ σ) (limit : Nat) : Option Task :=
  match world.nextDue? world.now with
  | some due => some (.meet due)
  | none =>
      match world.unsent? with
      | some exchange => some (.send exchange)
      | none => (world.nextDue? limit).map .meet

def carryOut (world : World κ γ σ) (host : Host κ γ σ) : Task → World κ γ σ
  | .meet due => world.meet host due
  | .send exchange => world.send host exchange

theorem work?_eq (world : World κ γ σ) (host : Host κ γ σ) (limit : Nat) :
    world.work? host limit = (world.task? limit).map (world.carryOut host) := by
  unfold work? task?
  cases world.nextDue? world.now with
  | some due => rfl
  | none =>
      cases world.unsent? with
      | some exchange => rfl
      | none =>
          exact (Option.map_map (world.carryOut host) .meet
              (world.nextDue? limit)).symm

theorem task?_meet (hnow : world.now ≤ limit)
    (htask : world.task? limit = some (.meet due)) :
    world.Ready limit due := by
  unfold task? at htask
  split at htask
  next first hfirst =>
    cases htask
    have hready := ready_of_nextDue? hfirst fun hlate => by
      obtain ⟨front, back, hsplit, -⟩ := nextDue?_split hfirst
      have hmem : due ∈ world.near world.now :=
        hsplit ▸ List.mem_append_right _ List.mem_cons_self
      exact absurd (mem_near.mp hmem).2.1 (Nat.not_le_of_lt hlate)
    exact { hready with time_le := Nat.le_trans hready.time_le hnow }
  next =>
    split at htask
    next => cases htask
    next hunsent =>
      obtain ⟨first, hfirst, hsame⟩ := Option.map_eq_some_iff.mp htask
      cases hsame
      exact ready_of_nextDue? hfirst fun _ => hunsent

theorem task?_send (htask : world.task? limit = some (.send exchange)) :
    world.unsent? = some exchange := by
  unfold task? at htask
  split at htask
  next => cases htask
  next =>
    split at htask
    next hunsent =>
      cases htask
      exact hunsent
    next =>
      obtain ⟨due, -, hsame⟩ := Option.map_eq_some_iff.mp htask
      cases hsame

theorem task?_none (htask : world.task? limit = none) :
    world.unsent? = none ∧ world.nextDue? limit = none := by
  unfold task? at htask
  split at htask
  next => cases htask
  next =>
    split at htask
    next => cases htask
    next hunsent => exact ⟨hunsent, Option.map_eq_none_iff.mp htask⟩

theorem meet_eq (world : World κ γ σ) (host : Host κ γ σ) (due : Due) :
    world.meet host due =
      { world with
        now := max world.now due.time
        arrivals := due.leaves world.arrivals }.apply host
        (world.engine.onEnd (max world.now due.time) due.question due.generation
          due.ending) := by
  cases due <;> rfl

end World

end DnsForwarder.Simulation
