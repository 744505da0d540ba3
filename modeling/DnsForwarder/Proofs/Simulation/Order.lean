import DnsForwarder.Proofs.Reactor.Traffic
import DnsForwarder.Simulation.Echo
import DnsForwarder.Simulation.Workshop
import Mathlib.Algebra.GroupWithZero.Nat
import Mathlib.Data.List.Induction

/-! A bridge hands its numbers on in the order in which they came, and timers go
off in the order in which they are due, none too late. -/

namespace DnsForwarder

namespace Timers

variable {τ : Type} {timers : Timers τ} {position : Nat} {timer : Timer τ}

theorem foldl_sooner (first : Timer τ × Nat) (rest : List (Timer τ × Nat)) :
    let sooner (best other : Timer τ × Nat) :=
      if other.1.due < best.1.due then other else best
    rest.foldl sooner first ∈ first :: rest ∧
      ∀ other ∈ first :: rest, (rest.foldl sooner first).1.due ≤
      other.1.due := by
  intro sooner
  induction rest generalizing first with
  | nil => simp
  | cons next rest ih =>
      obtain ⟨hmem, hleast⟩ := ih (sooner first next)
      have hchoice : sooner first next = first ∧ first.1.due ≤ next.1.due ∨
          sooner first next = next ∧ next.1.due < first.1.due := by
        by_cases hbefore : next.1.due < first.1.due
        · exact .inr ⟨if_pos hbefore, hbefore⟩
        · exact .inl ⟨if_neg hbefore, Nat.le_of_not_lt hbefore⟩
      simp only [List.foldl_cons, List.mem_cons] at *
      rcases hchoice with ⟨hchosen, hdue⟩ | ⟨hchosen, hdue⟩
      all_goals
        rw [hchosen] at hmem hleast ⊢
        grind

theorem mem_armed :
    (timer, position) ∈
        (timers.zipIdx.filter fun (timer, _) => timer.status == .armed) ↔
      timers[position]? = some timer ∧ timer.status = .armed := by
  simp [List.mem_zipIdx_iff_getElem?]

theorem next?_eq_some (hnext : timers.next? = some (position, timer)) :
    timers[position]? = some timer ∧ timer.status = .armed ∧
      ∀ other ∈ timers, other.status = .armed → timer.due ≤ other.due := by
  simp only [next?] at hnext
  split at hnext
  next => cases hnext
  next first rest harmed =>
    obtain ⟨hmem, hleast⟩ := foldl_sooner first rest
    simp only [Option.some.injEq, Prod.mk.injEq] at hnext
    obtain ⟨rfl, rfl⟩ := hnext
    rw [← harmed] at hmem hleast
    obtain ⟨hposition, hstatus⟩ := mem_armed.mp hmem
    refine ⟨hposition, hstatus, fun other hother hotherArmed => ?_⟩
    obtain ⟨place, hplace⟩ := List.mem_iff_getElem?.mp hother
    exact hleast (other, place) (mem_armed.mpr ⟨hplace, hotherArmed⟩)

theorem next?_eq_none (hnext : timers.next? = none) :
    ∀ timer ∈ timers, timer.status ≠ .armed := by
  intro timer htimer harmed
  obtain ⟨place, hplace⟩ := List.mem_iff_getElem?.mp htimer
  simp only [next?] at hnext
  split at hnext
  next hnil => exact List.not_mem_nil (hnil ▸ mem_armed.mpr ⟨hplace, harmed⟩)
  next => cases hnext

end Timers

namespace Simulation

namespace Workshop

variable {workshop : Workshop} {position : Nat} {timer : Timer Chime}

/-- How often a timer can still go off, with the one that follows it. -/
def rings (timer : Timer Chime) : Nat :=
  if timer.status = .armed then
    if timer.task.next?.isSome then 2 else 1
  else 0

def ringsOf (timers : Timers Chime) : Nat :=
  (timers.map rings).sum

theorem rings_le_two (timer : Timer Chime) : rings timer ≤ 2 := by
  unfold rings
  split
  next => split <;> decide
  next => decide

theorem rings_pos (harmed : timer.status = .armed) : 0 < rings timer := by
  rw [rings, if_pos harmed]
  split <;> decide

theorem ringsOf_le (timers : Timers Chime) :
    ringsOf timers ≤ 2 * timers.length := by
  induction timers with
  | nil => exact Nat.le_refl 0
  | cons timer timers ih =>
      have hrings := rings_le_two timer
      simp only [ringsOf, List.map_cons, List.sum_cons, List.length_cons]
        at ih ⊢
      omega

theorem ringsOf_mark_over {timers : Timers Chime}
    (hposition : timers[position]? = some timer) :
    ringsOf (timers.mark position .over) + rings timer = ringsOf timers := by
  obtain ⟨hlt, hget⟩ := List.getElem?_eq_some_iff.mp hposition
  obtain ⟨front, found, back, hsplit, rfl, hmark⟩ :=
    List.exists_of_modify (fun timer : Timer Chime =>
      { timer with status := .over }) hlt
  have hfound : found = timer := by
    rw [← hget]
    simp [hsplit]
  rw [Timers.mark, hmark, hsplit, hfound]
  simp only [ringsOf, List.map_append, List.map_cons, List.sum_append,
    List.sum_cons, rings]
  simp
  omega

theorem ringsOf_fire (hposition : workshop.timers[position]? = some timer)
    (harmed : timer.status = .armed) :
    ringsOf (workshop.fire position timer).timers + 1 =
      ringsOf workshop.timers := by
  have hmarked := ringsOf_mark_over hposition
  have hrings : rings timer = if timer.task.next?.isSome then 2 else 1 := by
    rw [rings, if_pos harmed]
  rw [hrings] at hmarked
  cases hnext : timer.task.next? with
  | none =>
      rw [hnext] at hmarked
      simp only [fire, hnext]
      split <;> exact hmarked
  | some delay =>
      rw [hnext] at hmarked
      have hfollower (due : Nat) :
          ringsOf ((workshop.timers.mark position .over).set due
            { tag := timer.task.tag + tagStep, known := false }) =
          ringsOf (workshop.timers.mark position .over) + 1 := by
        simp [ringsOf, Timers.set, rings]
      simp only [fire, hnext, setTimer]
      split <;> (simp only [stop, hfollower]; exact hmarked)

theorem fireAll_meets (workshop : Workshop) (limit count : Nat)
    (hcount : ringsOf workshop.timers ≤ count) :
    ∀ timer ∈ (fireAll limit count workshop).timers,
      timer.status = .armed → limit < timer.due := by
  induction count generalizing workshop with
  | zero =>
      intro timer htimer harmed
      have hrings : 0 < ringsOf workshop.timers :=
        List.sum_pos_iff_exists_pos_nat.mpr
          ⟨rings timer, List.mem_map_of_mem htimer, rings_pos harmed⟩
      omega
  | succ count ih =>
      rw [fireAll]
      split
      next hnone =>
        intro timer htimer harmed
        exact absurd harmed (Timers.next?_eq_none hnone timer htimer)
      next position next hnext =>
        obtain ⟨hposition, hstatus, hleast⟩ := Timers.next?_eq_some hnext
        split
        next =>
          have hfired := ringsOf_fire hposition hstatus
          exact ih _ (by omega)
        next hlate =>
          intro timer htimer harmed
          exact Nat.lt_of_lt_of_le (Nat.lt_of_not_le hlate)
            (hleast timer htimer harmed)

/-- No timer is late: what is due by the new time has gone off. -/
theorem advance_meets (workshop : Workshop) (ms : Nat) :
    ∀ timer ∈ (workshop.advance ms).timers,
      timer.status = .armed → (workshop.advance ms).now < timer.due :=
  fireAll_meets { workshop with timers := workshop.timers.sweep } _ _
    (ringsOf_le _)

/-- What went off stands in the order of time, and nothing is of the future. -/
structure InOrder (workshop : Workshop) : Prop where
  sorted : workshop.fired.Pairwise (·.time ≤ ·.time)
  past : ∀ fired ∈ workshop.fired, fired.time ≤ workshop.now

theorem fire_fired : (workshop.fire position timer).fired =
    workshop.fired ++ [⟨max workshop.now timer.due, timer.task.tag⟩] := by
  unfold fire
  cases timer.task.next? <;> cases timer.task.stops <;> rfl

theorem fire_now : (workshop.fire position timer).now =
    max workshop.now timer.due := by
  unfold fire
  cases timer.task.next? <;> cases timer.task.stops <;> rfl

theorem InOrder.fire (horder : workshop.InOrder) :
    (workshop.fire position timer).InOrder := by
  have hpast (fired : Fired) (hmem : fired ∈ workshop.fired) :
      fired.time ≤ max workshop.now timer.due :=
    Nat.le_trans (horder.past fired hmem) (Nat.le_max_left ..)
  constructor
  · rw [fire_fired, List.pairwise_append]
    refine ⟨horder.sorted, List.pairwise_singleton .., ?_⟩
    simpa using hpast
  · rw [fire_fired, fire_now, List.forall_mem_append]
    exact ⟨hpast, List.forall_mem_singleton.mpr (Nat.le_refl _)⟩

theorem InOrder.fireAll (horder : workshop.InOrder) {limit : Nat}
    (hnow : workshop.now ≤ limit) (count : Nat) :
    (fireAll limit count workshop).InOrder ∧
      (Workshop.fireAll limit count workshop).now ≤ limit := by
  induction count generalizing workshop with
  | zero => exact ⟨horder, hnow⟩
  | succ count ih =>
      rw [Workshop.fireAll]
      split
      next => exact ⟨horder, hnow⟩
      next position timer _ =>
        split
        next hdue =>
          exact ih horder.fire
            (by rw [fire_now]; exact Nat.max_le.mpr ⟨hnow, hdue⟩)
        next => exact ⟨horder, hnow⟩

theorem InOrder.advance (horder : workshop.InOrder) (ms : Nat) :
    (workshop.advance ms).InOrder := by
  have hswept : InOrder { workshop with timers := workshop.timers.sweep } :=
    ⟨horder.sorted, horder.past⟩
  obtain ⟨hfired, hnow⟩ := hswept.fireAll (Nat.le_add_right workshop.now ms)
    (2 * workshop.timers.sweep.length)
  exact ⟨hfired.sorted, fun fired hmem =>
    Nat.le_trans (hfired.past fired hmem) hnow⟩

inductive Call where
  | load (component : Component)
  | unload (position : Nat)
  | stop
  | setTimer (delay : Nat) (chime : Chime)
  | cancel (tag : Int)
  | advance (ms : Nat)

def obey (workshop : Workshop) : Call → Workshop
  | .load component => (workshop.load component).1
  | .unload position => (workshop.unload position).1
  | .stop => workshop.stop
  | .setTimer delay chime => workshop.setTimer delay chime
  | .cancel tag => (workshop.cancel? tag).getD workshop
  | .advance ms => workshop.advance ms

theorem InOrder.obey (horder : workshop.InOrder) (call : Call) :
    (workshop.obey call).InOrder := by
  cases call with
  | load component => exact ⟨horder.sorted, horder.past⟩
  | unload position =>
      simp only [Workshop.obey, unload]
      split <;> exact ⟨horder.sorted, horder.past⟩
  | stop => exact ⟨horder.sorted, horder.past⟩
  | setTimer delay chime => exact ⟨horder.sorted, horder.past⟩
  | cancel tag =>
      cases htimer : workshop.timer? tag with
      | none => simpa [Workshop.obey, cancel?, htimer] using horder
      | some place =>
          simp only [Workshop.obey, cancel?, htimer]
          exact ⟨horder.sorted, horder.past⟩
  | advance ms => exact horder.advance ms

theorem inOrder_of_calls (name : String) (calls : List Call) :
    (calls.foldl obey (create name)).InOrder := by
  induction calls using List.reverseRecOn with
  | nil => exact ⟨.nil, nofun⟩
  | append_singleton calls call ih =>
      rw [List.foldl_append]
      exact ih.obey call

end Workshop

namespace Echo

variable (below? : Option Int)

def answers (taken : List Int) : List Int :=
  (taken.filter fun item => 0 < followers below? item).map (· + 1)

theorem takeItems_order (steps : Nat) (bridge : Bridge Int)
    (hopen : bridge.closed = false) {later : Bridge Int} {taken : List Int}
    (htaken : takeItems below? steps bridge = (later, taken)) :
    later.closed = false ∧
      taken ++ later.items = bridge.items ++ answers below? taken := by
  induction steps generalizing bridge taken with
  | zero =>
      cases htaken
      exact ⟨hopen, by simp [answers]⟩
  | succ steps ih =>
      cases hitems : bridge.items with
      | nil =>
          simp only [takeItems, Bridge.consume, hitems] at htaken
          cases htaken
          exact ⟨hopen, by simp [hitems, answers]⟩
      | cons item rest =>
          simp only [takeItems, Bridge.consume, hitems] at htaken
          split at htaken
          next hanswered =>
            obtain ⟨next, hproduce, hnext, hqueue⟩ :=
              Bridge.exists_produce { bridge with items := rest }
                hopen (item + 1)
            simp only [hproduce] at htaken
            cases hothers : takeItems below? steps next with
            | mk last others =>
                rw [hothers] at htaken
                cases htaken
                obtain ⟨hlast, horder⟩ := ih next hnext hothers
                refine ⟨hlast, ?_⟩
                rw [List.cons_append, horder, hqueue]
                simp [answers, hanswered]
          next hsilent =>
            cases hothers : takeItems below? steps
              { bridge with items := rest } with
            | mk last others =>
                rw [hothers] at htaken
                cases htaken
                obtain ⟨hlast, horder⟩ :=
                  ih { bridge with items := rest } hopen hothers
                refine ⟨hlast, ?_⟩
                rw [List.cons_append, horder]
                simp [answers, hsilent]

theorem work_order (limit? : Option Nat) (runs : Nat) (bridge : Bridge Int)
    (hopen : bridge.closed = false) (wakes : List (List Int)) :
    ∃ taken : List Int,
      (Bridge.work (handle limit? below?) runs bridge wakes).2.flatten =
        wakes.flatten ++ taken ∧
      taken ++ (Bridge.work (handle limit? below?) runs bridge wakes).1.items =
        bridge.items ++ answers below? taken := by
  induction runs generalizing bridge wakes with
  | zero => exact ⟨[], by simp [Bridge.work], by simp [Bridge.work, answers]⟩
  | succ runs ih =>
      rw [Bridge.work]
      split
      next =>
        let all := total below? bridge.poll.items
        cases htaken : takeItems below? (min (limit?.getD all) all)
          bridge.poll with
        | mk later taken =>
          obtain ⟨hlater, horder⟩ := takeItems_order below? _ bridge.poll
            (by rw [Bridge.poll_closed, hopen]) htaken
          obtain ⟨more, hflat, hrest⟩ :=
            ih { later with watch := .asking } hlater (wakes ++ [taken])
          simp only [handle, all, htaken] at *
          refine ⟨taken ++ more, ?_, ?_⟩
          · rw [hflat]
            simp
          · rw [List.append_assoc, hrest, ← List.append_assoc, horder]
            simp [answers]
      next => exact ⟨[], by simp, by simp [answers]⟩

/-- Numbers are taken in the order in which they came, answers after them. -/
theorem advance_order (echo : Echo) (hopen : echo.bridge.closed = false) :
    ∃ taken : List Int,
      echo.advance.wakes.flatten = echo.wakes.flatten ++ taken ∧
      taken ++ echo.advance.bridge.items =
        echo.bridge.items ++ answers echo.below? taken :=
  work_order echo.below? echo.limit?
    (total echo.below? echo.bridge.items + 2) echo.bridge hopen echo.wakes

end Echo

end Simulation

end DnsForwarder
