import DnsForwarder.Reactor.Bridge
import Mathlib.Data.List.Nodup

/-! A bridge between threads. Its operations come apart into what happens under
the lock and the signal behind it, and the steps of threads and of the task mix
in any way. No item is lost, and no signal that the task needs. -/

namespace DnsForwarder

namespace Bridge

variable {α : Type} (bridge : Bridge α)

def shut : Bridge α × List α :=
  if bridge.closed then (bridge, [])
  else ({ bridge with items := [], closed := true }, bridge.items)

/-- How many runs of the handler the signals are good for that have been
given. -/
def signals : Nat :=
  (if bridge.permit then 1 else 0) + if bridge.watch = .woken then 1 else 0

def IsAlert : Prop :=
  bridge.permit ∨ bridge.watch = .woken ∨ bridge.watch = .handling

@[simp] theorem notify_items : bridge.notify.items = bridge.items := by
  rw [notify]
  split <;> rfl

@[simp] theorem notify_closed : bridge.notify.closed = bridge.closed := by
  rw [notify]
  split <;> rfl

@[simp] theorem poll_items : bridge.poll.items = bridge.items := by
  rw [poll]
  split
  next =>
    split
    next => rfl
    next => split <;> rfl
  next => rfl
  all_goals rfl

@[simp] theorem poll_closed : bridge.poll.closed = bridge.closed := by
  rw [poll]
  split
  next =>
    split
    next => rfl
    next => split <;> rfl
  next => rfl
  all_goals rfl

theorem exists_produce (hopen : bridge.closed = false) (item : α) :
    ∃ next, bridge.produce item = .ok next ∧ next.closed = false ∧
      next.items = bridge.items ++ [item] := by
  have hpush : bridge.push item =
      .ok ({ bridge with items := bridge.items ++ [item] },
      bridge.items.isEmpty) :=
    if_neg (by simp [hopen])
  rw [produce, hpush]
  refine ⟨_, rfl, ?_⟩
  dsimp only
  split
  next => simp [hopen]
  next => exact ⟨hopen, rfl⟩

theorem close_eq : bridge.close =
    if bridge.closed then (bridge, [])
      else (bridge.shut.1.notify, bridge.shut.2) := by
  rw [close, shut]
  split <;> rfl

variable {bridge}

theorem notify_isAlert : bridge.notify.IsAlert := by
  rw [notify]
  split
  next => exact .inr (.inl rfl)
  next => exact .inl rfl

theorem notify_signals : bridge.notify.signals ≤ bridge.signals + 1 := by
  rw [notify, signals, signals]
  split
  next hwaiting =>
    simp [hwaiting]
  next =>
    dsimp only
    split <;> split <;> simp

/-- A task that finds no signal waits for one, so what it would have seen is
announced later. -/
theorem poll_isAlert (hopen : bridge.closed = false) (halert : bridge.IsAlert) :
    bridge.poll.IsAlert := by
  rw [poll]
  cases hwatch : bridge.watch with
  | asking =>
      rcases halert with hpermit | hwoken | hhandling
      · rw [hopen, hpermit]
        exact .inr (.inr rfl)
      · rw [hwatch] at hwoken
        cases hwoken
      · rw [hwatch] at hhandling
        cases hhandling
  | woken =>
      rw [hopen]
      exact .inr (.inr rfl)
  | absent | waiting | handling | ended => exact halert

theorem poll_signals (hopen : bridge.closed = false) :
    (if bridge.watch ≠ .handling ∧ bridge.poll.watch =
      .handling then 1 else 0) +
      bridge.poll.signals ≤ bridge.signals := by
  rw [poll]
  cases hwatch : bridge.watch with
  | asking =>
      cases hpermit : bridge.permit <;> simp [hopen, signals, hwatch, hpermit]
  | woken =>
      simp [hopen, signals, hwatch, Nat.add_comm]
  | absent | waiting | handling | ended => simp [hwatch]

theorem poll_ended (hclosed : bridge.closed)
    (hpoll : bridge.poll.watch = .handling) :
    bridge.watch = .handling := by
  rw [poll] at hpoll
  cases hwatch : bridge.watch <;> simp_all

end Bridge

/-- A bridge, the calls of threads that hold it between their two parts, and
what has happened. -/
structure Traffic (τ α : Type) where
  bridge : Bridge α := {}
  /-- Calls that have pushed onto an empty queue and not given the signal
  yet. -/
  due : List (τ × α) := []
  /-- Threads that have ended the queue and not given the signal yet. -/
  closing : List τ := []
  accepted : List (τ × α) := []
  returned : List (τ × α) := []
  consumed : List α := []
  discarded : List α := []
  /-- How many items calls of `close` report, in the order in which they come to
  the lock. -/
  reports : List Nat := []
  /-- How often the queue has become non-empty. -/
  fillings : Nat := 0
  runs : Nat := 0

inductive Action (τ α : Type) where
  | push (thread : τ) (item : α)
  | close (thread : τ)
  /-- The signal of a call that has pushed or closed, which returns then. -/
  | signal (thread : τ)
  | start
  | poll
  | serve
  /-- The reactor ends the task of a queue that has ended. -/
  | abort

namespace Traffic

variable {τ α : Type}

def push (traffic : Traffic τ α) (thread : τ) (item : α) : Traffic τ α :=
  match traffic.bridge.push item with
  | .error _ => traffic
  | .ok (bridge, due) =>
      let call := [(thread, item)]
      { traffic with
        bridge
        due := traffic.due ++ if due then call else []
        accepted := traffic.accepted ++ call
        returned := traffic.returned ++ if due then [] else call
        fillings :=
          traffic.fillings + if traffic.bridge.items.isEmpty then 1 else 0 }

def close (traffic : Traffic τ α) (thread : τ) : Traffic τ α :=
  let (bridge, discarded) := traffic.bridge.shut
  { traffic with
    bridge
    closing :=
      if traffic.bridge.closed then traffic.closing
      else thread :: traffic.closing
    discarded := traffic.discarded ++ discarded
    reports := traffic.reports ++ [discarded.length] }

def poll (traffic : Traffic τ α) : Traffic τ α :=
  let bridge := traffic.bridge.poll
  let begins := traffic.bridge.watch ≠ .handling ∧ bridge.watch = .handling
  { traffic with bridge, runs := traffic.runs + if begins then 1 else 0 }

def serve (traffic : Traffic τ α) : Traffic τ α :=
  if traffic.bridge.watch ≠ .handling then traffic
  else
    match traffic.bridge.consume with
    | (bridge, some item) =>
        { traffic with bridge, consumed := traffic.consumed ++ [item] }
    | (bridge, none) =>
        { traffic with bridge := { bridge with watch := .asking } }

section Threads

variable [DecidableEq τ]

/-- A thread between the two parts of a call makes no other. -/
def isBusy (traffic : Traffic τ α) (thread : τ) : Bool :=
  traffic.due.any (·.1 = thread) || traffic.closing.contains thread

def signal (traffic : Traffic τ α) (thread : τ) : Traffic τ α :=
  match traffic.due.find? (·.1 = thread) with
  | some call =>
      { traffic with
        bridge := traffic.bridge.notify
        due := traffic.due.eraseP (·.1 = thread)
        returned := traffic.returned ++ [call] }
  | none =>
      if thread ∈ traffic.closing then
        { traffic with
          bridge := traffic.bridge.notify
          closing := traffic.closing.erase thread }
      else traffic

def act (traffic : Traffic τ α) : Action τ α → Traffic τ α
  | .push thread item =>
      if traffic.isBusy thread then traffic else traffic.push thread item
  | .close thread =>
      if traffic.isBusy thread then traffic else traffic.close thread
  | .signal thread => traffic.signal thread
  | .start =>
      match traffic.bridge.start with
      | .error _ => traffic
      | .ok bridge => { traffic with bridge }
  | .poll => traffic.poll
  | .serve => traffic.serve
  | .abort =>
      if traffic.bridge.closed then
        { traffic with bridge := { traffic.bridge with watch := .absent } }
      else traffic

def run (actions : List (Action τ α)) : Traffic τ α :=
  actions.foldl act {}

def callsOf (thread : τ) (calls : List (τ × α)) : List (τ × α) :=
  calls.filter (·.1 = thread)

structure Orderly (traffic : Traffic τ α) : Prop where
  order : traffic.accepted.map Prod.snd =
    traffic.consumed ++ (traffic.bridge.items ++ traffic.discarded)
  calls : ∀ thread, callsOf thread traffic.accepted =
    callsOf thread traffic.returned ++ callsOf thread traffic.due
  single : (traffic.due.map Prod.fst).Nodup
  unclosed : traffic.bridge.closed = false →
    traffic.closing = [] ∧ traffic.discarded = [] ∧ traffic.reports = []
  closed : traffic.bridge.closed →
    traffic.bridge.items = [] ∧
      ∃ count, traffic.reports = traffic.discarded.length ::
      List.replicate count 0

/-- Each filling of the queue is good for one signal and each signal for one
run, and while there is something in the queue, a signal is on its way or the
task will look. -/
structure Awake (traffic : Traffic τ α) : Prop where
  alert : traffic.bridge.closed = false → traffic.bridge.items ≠ [] →
    traffic.due ≠ [] ∨ traffic.bridge.IsAlert
  signals : traffic.bridge.closed = false →
    traffic.runs + traffic.bridge.signals + traffic.due.length ≤
    traffic.fillings
  runs : traffic.runs ≤ traffic.fillings

end Threads

variable {traffic : Traffic τ α} {thread : τ} {item : α}

theorem push_cases (traffic : Traffic τ α) (thread : τ) (item : α) :
    (traffic.bridge.closed ∧ traffic.push thread item = traffic) ∨
      (traffic.bridge.closed = false ∧
        ((traffic.bridge.items = [] ∧ traffic.push thread item =
          { traffic with
            bridge := { traffic.bridge with items := [item] }
            due := traffic.due ++ [(thread, item)]
            accepted := traffic.accepted ++ [(thread, item)]
            fillings := traffic.fillings + 1 }) ∨
        (traffic.bridge.items ≠ [] ∧ traffic.push thread item =
          { traffic with
            bridge :=
              { traffic.bridge with items := traffic.bridge.items ++ [item] }
            accepted := traffic.accepted ++ [(thread, item)]
            returned := traffic.returned ++ [(thread, item)] }))) := by
  rw [push, Bridge.push]
  by_cases hclosed : traffic.bridge.closed
  · rw [if_pos hclosed]
    exact .inl ⟨hclosed, rfl⟩
  · rw [if_neg hclosed]
    refine .inr ⟨by simpa using hclosed, ?_⟩
    by_cases hempty : traffic.bridge.items = []
    · refine .inl ⟨hempty, ?_⟩
      simp [hempty]
    · refine .inr ⟨hempty, ?_⟩
      simp [List.isEmpty_eq_false_iff.mpr hempty]

theorem start_cases {bridge : Bridge α}
    (hstart : traffic.bridge.start = .ok bridge) :
    bridge = traffic.bridge ∨
      (traffic.bridge.watch = .absent ∧
        bridge = { traffic.bridge with watch := .asking }) := by
  rw [Bridge.start] at hstart
  split at hstart
  next =>
    cases hstart
    exact .inl rfl
  next hwatch =>
    split at hstart
    next => cases hstart
    next =>
      cases hstart
      exact .inr ⟨by simpa using hwatch, rfl⟩

theorem Awake.push (hawake : Awake traffic) :
    Awake (traffic.push thread item) := by
  obtain ⟨halert, hsignals, hruns⟩ := id hawake
  rcases push_cases traffic thread item with
    ⟨-, heq⟩ | ⟨-, ⟨-, heq⟩ | ⟨hitems, heq⟩⟩
  · rw [heq]
    exact hawake
  · rw [heq]
    refine ⟨fun _ _ => .inl (by simp), fun hopen => ?_, Nat.le_succ_of_le hruns⟩
    have hle := hsignals hopen
    simp only [Bridge.signals, List.length_append, List.length_singleton]
      at hle ⊢
    omega
  · rw [heq]
    exact ⟨fun hopen _ => halert hopen hitems, hsignals, hruns⟩

theorem Awake.close (hawake : Awake traffic) :
    Awake (traffic.close thread) := by
  rw [Traffic.close, Bridge.shut]
  by_cases hclosed : traffic.bridge.closed
  · simp only [if_pos hclosed]
    exact ⟨hawake.alert, hawake.signals, hawake.runs⟩
  · simp only [if_neg hclosed]
    exact ⟨nofun, nofun, hawake.runs⟩

theorem Awake.poll (hawake : Awake traffic) : Awake traffic.poll := by
  obtain ⟨halert, hsignals, hruns⟩ := hawake
  by_cases hclosed : traffic.bridge.closed = false
  · have hpoll := Bridge.poll_signals hclosed
    have hle := hsignals hclosed
    refine ⟨fun _ hitems => ?_, fun _ => ?_, ?_⟩
    · rcases halert hclosed (by simpa [Traffic.poll] using hitems) with
        hdue | hbridge
      · exact .inl hdue
      · exact .inr (Bridge.poll_isAlert hclosed hbridge)
    · simp only [Traffic.poll]
      omega
    · simp only [Traffic.poll]
      omega
  · have hend : traffic.bridge.closed := by simpa using hclosed
    refine ⟨fun hopen => absurd (by simpa [Traffic.poll] using hopen) hclosed,
      fun hopen => absurd (by simpa [Traffic.poll] using hopen) hclosed, ?_⟩
    have hbegins :
        ¬(traffic.bridge.watch ≠ .handling ∧ traffic.bridge.poll.watch =
          .handling) :=
      fun hboth => hboth.1 (Bridge.poll_ended hend hboth.2)
    simp only [Traffic.poll, if_neg hbegins]
    exact hruns

theorem Awake.serve (hawake : Awake traffic) : Awake traffic.serve := by
  obtain ⟨halert, hsignals, hruns⟩ := id hawake
  rw [Traffic.serve, Bridge.consume]
  split
  next => exact hawake
  next hhandling =>
    have hhandling : traffic.bridge.watch = .handling :=
      by simpa using hhandling
    cases hitems : traffic.bridge.items with
    | nil =>
        refine ⟨fun _ hnonempty =>
          absurd hitems hnonempty, fun hopen => ?_, hruns⟩
        have hle := hsignals hopen
        simpa [Bridge.signals, hhandling] using hle
    | cons item rest =>
        exact ⟨fun _ _ => .inr (.inr (.inr hhandling)), hsignals, hruns⟩

variable [DecidableEq τ]

theorem signal_cases (traffic : Traffic τ α) (thread : τ) :
    (∃ front item back, traffic.due = front ++ (thread, item) :: back ∧
      traffic.signal thread =
        { traffic with
          bridge := traffic.bridge.notify
          due := front ++ back
          returned := traffic.returned ++ [(thread, item)] }) ∨
      (thread ∈ traffic.closing ∧ traffic.signal thread =
        { traffic with
          bridge := traffic.bridge.notify
          closing := traffic.closing.erase thread }) ∨
      traffic.signal thread = traffic := by
  rw [signal]
  cases hfind : traffic.due.find? (·.1 = thread) with
  | some call =>
      obtain ⟨hcall, front, back, hdue, hfront⟩ :=
        List.find?_eq_some_iff_append.mp hfind
      obtain ⟨other, item⟩ := call
      obtain rfl : other = thread := by simpa using hcall
      have herase : traffic.due.eraseP (·.1 = other) = front ++ back := by
        rw [hdue, List.eraseP_append_right _ (by simpa using hfront),
          List.eraseP_cons_of_pos (by simp)]
      refine .inl ⟨front, item, back, hdue, ?_⟩
      rw [herase]
  | none =>
      by_cases hclosing : thread ∈ traffic.closing
      · exact .inr (.inl ⟨hclosing, if_pos hclosing⟩)
      · exact .inr (.inr (if_neg hclosing))

theorem callsOf_append (thread : τ) (first second : List (τ × α)) :
    callsOf thread (first ++ second) = callsOf thread first ++
      callsOf thread second :=
  List.filter_append ..

theorem callsOf_eq_nil {calls : List (τ × α)}
    (hcalls : thread ∉ calls.map Prod.fst) :
    callsOf thread calls = [] := by
  rw [callsOf, List.filter_eq_nil_iff]
  intro call hcall hthread
  exact hcalls (List.mem_map.mpr ⟨call, hcall, by simpa using hthread⟩)

theorem not_mem_due (hidle : ¬traffic.isBusy thread = true) :
    thread ∉ traffic.due.map Prod.fst := by
  intro hmem
  obtain ⟨call, hcall, rfl⟩ := List.mem_map.mp hmem
  apply hidle
  rw [isBusy, Bool.or_eq_true, List.any_eq_true]
  exact .inl ⟨call, hcall, by simp⟩

theorem Orderly.withBridge {bridge : Bridge α} (horderly : Orderly traffic)
    (runs : Nat) (hitems : bridge.items = traffic.bridge.items)
    (hclosed : bridge.closed = traffic.bridge.closed) :
    Orderly { traffic with bridge, runs } where
  order := by
    rw [hitems]
    exact horderly.order
  calls := horderly.calls
  single := horderly.single
  unclosed hopen := horderly.unclosed (hclosed ▸ hopen)
  closed hend := by
    rw [hitems]
    exact horderly.closed (hclosed ▸ hend)

theorem Orderly.push (horderly : Orderly traffic)
    (hidle : ¬traffic.isBusy thread = true) :
    Orderly (traffic.push thread item) := by
  obtain ⟨horder, hcalls, hsingle, hunclosed, -⟩ := id horderly
  have hdue := not_mem_due hidle
  rcases push_cases traffic thread item with
    ⟨-, heq⟩ | ⟨hopen, ⟨hitems, heq⟩ | ⟨-, heq⟩⟩
  · rw [heq]
    exact horderly
  · obtain ⟨hclosing, hdiscarded, hreports⟩ := hunclosed hopen
    rw [hitems, hdiscarded] at horder
    rw [heq]
    refine ⟨?_, fun other => ?_, ?_, hunclosed, fun hclosed => ?_⟩
    · simp [horder, hdiscarded]
    · simp only [callsOf_append, hcalls, List.append_assoc]
    · rw [List.map_append, List.nodup_append]
      refine ⟨hsingle, by simp, fun other hother last hlast heq => ?_⟩
      rw [heq, List.mem_singleton.mp hlast] at hother
      exact hdue hother
    · exact absurd (hopen.symm.trans hclosed) Bool.false_ne_true
  · obtain ⟨hclosing, hdiscarded, hreports⟩ := hunclosed hopen
    rw [hdiscarded] at horder
    rw [heq]
    refine ⟨?_, fun other => ?_, hsingle, hunclosed, fun hclosed => ?_⟩
    · simp [horder, hdiscarded]
    · by_cases hother : other = thread
      · subst hother
        rw [callsOf_append, hcalls, callsOf_append, callsOf_eq_nil hdue,
          List.append_nil, List.append_nil]
      · have hnone : callsOf other [(thread, item)] = [] :=
          callsOf_eq_nil (by simpa using hother)
        rw [callsOf_append, callsOf_append, hcalls, hnone, List.append_nil,
          List.append_nil]
    · exact absurd (hopen.symm.trans hclosed) Bool.false_ne_true

theorem Orderly.close (horderly : Orderly traffic) :
    Orderly (traffic.close thread) := by
  obtain ⟨horder, hcalls, hsingle, hunclosed, hended⟩ := id horderly
  rw [Traffic.close, Bridge.shut]
  by_cases hclosed : traffic.bridge.closed
  · obtain ⟨hitems, count, hreports⟩ := hended hclosed
    simp only [if_pos hclosed, List.append_nil]
    refine ⟨horder, hcalls, hsingle, fun hopen => ?_, fun _ =>
      ⟨hitems, count + 1, ?_⟩⟩
    · exact absurd (hopen.symm.trans hclosed) Bool.false_ne_true
    · rw [hreports, List.replicate_succ']
      rfl
  · obtain ⟨hclosing, hdiscarded, hreports⟩ :=
      hunclosed (by simpa using hclosed)
    simp only [if_neg hclosed]
    refine ⟨?_, hcalls, hsingle, nofun, fun _ => ⟨rfl, 0, ?_⟩⟩
    · simpa [hdiscarded] using horder
    · rw [hreports, hdiscarded]
      rfl

theorem Orderly.signal (horderly : Orderly traffic) :
    Orderly (traffic.signal thread) := by
  obtain ⟨horder, hcalls, hsingle, hunclosed, hended⟩ := id horderly
  rcases signal_cases traffic thread with
    ⟨front, item, back, hdue, heq⟩ | ⟨hclosing, heq⟩ | heq
  · rw [hdue, List.map_append, List.map_cons, List.nodup_middle,
      List.nodup_cons, ← List.map_append] at hsingle
    rw [heq]
    refine ⟨by simpa using horder, fun other => ?_, hsingle.2,
      by simpa using hunclosed, by simpa using hended⟩
    rw [hcalls, hdue]
    by_cases hother : other = thread
    · subst hother
      have hmiddle : callsOf other ((other, item) :: back) =
          (other, item) :: callsOf other back :=
        List.filter_cons_of_pos (by simp)
      have hnone := callsOf_eq_nil hsingle.1
      have hcall : callsOf other [(other, item)] = [(other, item)] :=
        List.filter_cons_of_pos (by simp)
      rw [callsOf_append other front back, List.append_eq_nil_iff] at hnone
      rw [callsOf_append, callsOf_append, callsOf_append other front back,
        hmiddle, hcall, hnone.1,
        hnone.2, List.nil_append, List.nil_append, List.append_nil]
    · have hmiddle : callsOf other ((thread, item) :: back) =
          callsOf other back :=
        List.filter_cons_of_neg (by simpa using Ne.symm hother)
      have hcall : callsOf other [(thread, item)] = [] :=
        callsOf_eq_nil (by simpa using hother)
      rw [callsOf_append, callsOf_append, callsOf_append other front back,
        hmiddle, hcall, List.append_nil]
  · rw [heq]
    refine ⟨by simpa using horder, hcalls, hsingle, fun hopen => ?_,
      by simpa using hended⟩
    have hnone := (hunclosed (by simpa using hopen)).1
    rw [hnone] at hclosing
    cases hclosing
  · rw [heq]
    exact horderly

theorem Orderly.serve (horderly : Orderly traffic) : Orderly traffic.serve := by
  rw [Traffic.serve, Bridge.consume]
  split
  next => exact horderly
  next =>
    cases hitems : traffic.bridge.items with
    | nil => exact horderly.withBridge traffic.runs rfl rfl
    | cons item rest =>
        obtain ⟨horder, hcalls, hsingle, hunclosed, hended⟩ := horderly
        refine ⟨?_, hcalls, hsingle, hunclosed, fun hclosed => ?_⟩
        · simpa [hitems] using horder
        · rw [(hended hclosed).1] at hitems
          cases hitems

theorem Orderly.act (horderly : Orderly traffic) (action : Action τ α) :
    Orderly (traffic.act action) := by
  cases action with
  | push thread item =>
      rw [Traffic.act]
      split
      next => exact horderly
      next hidle => exact horderly.push hidle
  | close thread =>
      rw [Traffic.act]
      split
      next => exact horderly
      next => exact horderly.close
  | signal thread => exact horderly.signal
  | start =>
      rw [Traffic.act]
      split
      next => exact horderly
      next bridge hstart =>
        rcases start_cases hstart with rfl | ⟨-, rfl⟩
        · exact horderly
        · exact horderly.withBridge traffic.runs rfl rfl
  | poll =>
      exact horderly.withBridge _ (Bridge.poll_items _) (Bridge.poll_closed _)
  | serve => exact horderly.serve
  | abort =>
      rw [Traffic.act]
      split
      next => exact horderly.withBridge traffic.runs rfl rfl
      next => exact horderly

theorem Awake.signal (hawake : Awake traffic) (horderly : Orderly traffic) :
    Awake (traffic.signal thread) := by
  obtain ⟨halert, hsignals, hruns⟩ := id hawake
  rcases signal_cases traffic thread with
    ⟨front, item, back, hdue, heq⟩ | ⟨hclosing, heq⟩ | heq
  · rw [heq]
    refine ⟨fun _ _ => .inr Bridge.notify_isAlert, fun hopen => ?_, hruns⟩
    have hle := hsignals (by simpa using hopen)
    have hnotify := traffic.bridge.notify_signals
    rw [hdue] at hle
    simp only [List.length_append, List.length_cons] at hle ⊢
    omega
  · -- The queue has ended, and nothing is asked of the task any more.
    have hclosed : traffic.bridge.closed ≠ false := by
      intro hopen
      rw [(horderly.unclosed hopen).1] at hclosing
      cases hclosing
    rw [heq]
    exact ⟨fun hopen => absurd (by simpa using hopen) hclosed,
      fun hopen => absurd (by simpa using hopen) hclosed, hruns⟩
  · rw [heq]
    exact hawake

theorem Awake.act (hawake : Awake traffic) (horderly : Orderly traffic)
    (action : Action τ α) :
    Awake (traffic.act action) := by
  cases action with
  | push thread item =>
      rw [Traffic.act]
      split
      next => exact hawake
      next => exact hawake.push
  | close thread =>
      rw [Traffic.act]
      split
      next => exact hawake
      next => exact hawake.close
  | signal thread => exact hawake.signal horderly
  | start =>
      rw [Traffic.act]
      split
      next => exact hawake
      next bridge hstart =>
        rcases start_cases hstart with rfl | ⟨hwatch, rfl⟩
        · exact hawake
        · obtain ⟨halert, hsignals, hruns⟩ := hawake
          refine ⟨fun hopen hitems => ?_, fun hopen => ?_, hruns⟩
          · simpa [Bridge.IsAlert, hwatch] using halert hopen hitems
          · simpa [Bridge.signals, hwatch] using hsignals hopen
  | poll => exact hawake.poll
  | serve => exact hawake.serve
  | abort =>
      rw [Traffic.act]
      split
      next hclosed =>
        exact ⟨fun hopen =>
          absurd (hopen.symm.trans hclosed) Bool.false_ne_true,
          fun hopen => absurd (hopen.symm.trans hclosed) Bool.false_ne_true,
            hawake.runs⟩
      next => exact hawake

theorem actions_sound (actions : List (Action τ α))
    (horderly : Orderly traffic) (hawake : Awake traffic) :
    Orderly (actions.foldl act traffic) ∧
      Awake (actions.foldl act traffic) := by
  induction actions generalizing traffic with
  | nil => exact ⟨horderly, hawake⟩
  | cons action rest ih =>
      exact ih (horderly.act action) (hawake.act horderly action)

theorem run_sound (actions : List (Action τ α)) :
    Orderly (run actions) ∧ Awake (run actions) := by
  apply actions_sound
  · exact ⟨rfl, fun _ => rfl, List.nodup_nil, fun _ => ⟨rfl, rfl, rfl⟩, nofun⟩
  · exact ⟨fun _ hitems => absurd rfl hitems, fun _ =>
      Nat.le_refl 0, Nat.le_refl 0⟩

theorem act_closed (horderly : Orderly traffic)
    (hclosed : traffic.bridge.closed) (action : Action τ α) :
    (traffic.act action).bridge.closed ∧ (traffic.act action).accepted =
      traffic.accepted ∧
      (traffic.act action).consumed = traffic.consumed := by
  cases action with
  | push thread item =>
      rw [act]
      split
      next => exact ⟨hclosed, rfl, rfl⟩
      next =>
        rcases push_cases traffic thread item with ⟨-, heq⟩ | ⟨hopen, -⟩
        · rw [heq]
          exact ⟨hclosed, rfl, rfl⟩
        · exact absurd (hopen.symm.trans hclosed) Bool.false_ne_true
  | close thread =>
      rw [act]
      split
      next => exact ⟨hclosed, rfl, rfl⟩
      next =>
        have hshut : traffic.bridge.shut = (traffic.bridge, []) :=
          if_pos hclosed
        rw [close, hshut]
        exact ⟨hclosed, rfl, rfl⟩
  | signal thread =>
      rw [act]
      rcases signal_cases traffic thread with ⟨_, _, _, -, heq⟩ | ⟨-, heq⟩ | heq
      all_goals
        rw [heq]
        exact ⟨by simpa using hclosed, rfl, rfl⟩
  | start =>
      rw [act]
      split
      next => exact ⟨hclosed, rfl, rfl⟩
      next bridge hstart =>
        rcases start_cases hstart with rfl | ⟨-, rfl⟩
        all_goals exact ⟨hclosed, rfl, rfl⟩
  | poll => exact ⟨(Bridge.poll_closed _).trans hclosed, rfl, rfl⟩
  | serve =>
      rw [act, serve]
      split
      next => exact ⟨hclosed, rfl, rfl⟩
      next =>
        rw [Bridge.consume, (horderly.closed hclosed).1]
        exact ⟨hclosed, rfl, rfl⟩
  | abort =>
      rw [act, if_pos hclosed]
      exact ⟨hclosed, rfl, rfl⟩

theorem actions_closed (actions : List (Action τ α))
    (horderly : Orderly traffic) (hclosed : traffic.bridge.closed) :
    (actions.foldl act traffic).accepted = traffic.accepted ∧
      (actions.foldl act traffic).consumed = traffic.consumed := by
  induction actions generalizing traffic with
  | nil => exact ⟨rfl, rfl⟩
  | cons action rest ih =>
      obtain ⟨hend, haccepted, hconsumed⟩ := act_closed horderly hclosed action
      obtain ⟨hallAccepted, hallConsumed⟩ := ih (horderly.act action) hend
      exact ⟨hallAccepted.trans haccepted, hallConsumed.trans hconsumed⟩

/-- Without other threads between, the parts of a call are the call. -/
theorem produce_parts {bridge : Bridge α}
    (hidle : ¬traffic.isBusy thread = true)
    (hproduce : traffic.bridge.produce item = .ok bridge) :
    ((traffic.act (.push thread item)).act (.signal thread)).bridge =
      bridge := by
  have hdue : traffic.due.find? (·.1 = thread) = none := by
    rw [List.find?_eq_none]
    intro call hcall hthread
    exact not_mem_due hidle
      (List.mem_map.mpr ⟨call, hcall, by simpa using hthread⟩)
  have hclosing : thread ∉ traffic.closing := by
    intro hmem
    exact hidle (by simp [isBusy, hmem])
  rw [Bridge.produce, Bridge.push] at hproduce
  simp only [act, if_neg hidle]
  rcases push_cases traffic thread item with
    ⟨hclosed, -⟩ | ⟨hopen, ⟨hitems, heq⟩ | ⟨hitems, heq⟩⟩
  · rw [if_pos hclosed] at hproduce
    cases hproduce
  · simp only [hopen, hitems] at hproduce
    cases hproduce
    simp [heq, signal, List.find?_append, hdue, hopen]
  · simp only [hopen, List.isEmpty_eq_false_iff.mpr hitems] at hproduce
    cases hproduce
    simp [heq, signal, hdue, hclosing, hopen]

theorem close_parts (hidle : ¬traffic.isBusy thread = true) :
    ((traffic.act (.close thread)).act (.signal thread)).bridge =
      traffic.bridge.close.1 := by
  have hdue : traffic.due.find? (·.1 = thread) = none := by
    rw [List.find?_eq_none]
    intro call hcall hthread
    exact not_mem_due hidle
      (List.mem_map.mpr ⟨call, hcall, by simpa using hthread⟩)
  have hclosing : thread ∉ traffic.closing := by
    intro hmem
    exact hidle (by simp [isBusy, hmem])
  rw [Bridge.close_eq]
  simp only [act, if_neg hidle, close, signal, hdue]
  split
  next hclosed => simp [Bridge.shut, hclosed]
  next hclosed => simp [Bridge.shut, hclosed]

/-- Whatever threads and the task do in whatever order: the items consumed, and
behind them those in the queue or discarded by its end, are the items accepted,
in their order; a thread's calls that were accepted have returned, or the last
of them is about to give its signal. Nothing is accepted or consumed after the
end, which reports once how much it discarded. While items are in the queue, a
call is about to give a signal, or one is there, or the handler runs; and the
handler runs at most once for each time that the queue becomes non-empty. -/
theorem bridge_loses_nothing (actions : List (Action τ α)) :
    let traffic := run actions
    traffic.accepted.map Prod.snd =
        traffic.consumed ++ (traffic.bridge.items ++ traffic.discarded) ∧
      (∀ thread, callsOf thread traffic.accepted =
        callsOf thread traffic.returned ++ callsOf thread traffic.due) ∧
      (traffic.due.map Prod.fst).Nodup ∧
      (traffic.bridge.closed → ∀ later,
        (run (actions ++ later)).accepted = traffic.accepted ∧
          (run (actions ++ later)).consumed = traffic.consumed) ∧
      (traffic.bridge.closed = false → traffic.discarded = [] ∧
        traffic.reports = []) ∧
      (traffic.bridge.closed → traffic.bridge.items = [] ∧
        ∃ count, traffic.reports = traffic.discarded.length ::
        List.replicate count 0) ∧
      (traffic.bridge.closed = false → traffic.bridge.items ≠ [] →
        traffic.due ≠ [] ∨ traffic.bridge.permit ∨
        traffic.bridge.watch = .woken ∨ traffic.bridge.watch = .handling) ∧
      traffic.runs ≤ traffic.fillings := by
  obtain ⟨horderly, hawake⟩ := run_sound actions
  refine ⟨horderly.order, horderly.calls, horderly.single,
    fun hclosed later => ?_,
    fun hopen => (horderly.unclosed hopen).2, horderly.closed, hawake.alert,
      hawake.runs⟩
  simp only [run, List.foldl_append]
  exact actions_closed later horderly hclosed

end Traffic

end DnsForwarder
