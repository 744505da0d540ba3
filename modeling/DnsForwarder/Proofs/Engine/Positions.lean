import DnsForwarder.Proofs.Engine.Apart

/-! The positions of servers. An engine takes remainders by the number of its
servers and looks its servers up at positions. The checked operations do the
same and come to nothing where a remainder would be by zero or a position
outside of the list. On an engine whose positions are in range they never come
to nothing, and events keep them in range. -/

namespace DnsForwarder

def remainder? (value count : Nat) : Option Nat :=
  if count = 0 then none else some (value % count)

theorem remainder?_eq_some {count : Nat} (hcount : 0 < count) (value : Nat) :
    remainder? value count = some (value % count) :=
  if_neg (Nat.ne_of_gt hcount)

namespace Engine

variable {κ γ : Type}

section Checked

variable (engine : Engine κ γ) (now : Nat) (question : Question)

def following? (settings : Settings) (server : Nat) : Option Nat :=
  remainder? (server + 1) settings.servers.length

def launch? (entry : InFlight κ γ) : Option (Engine κ γ) := do
  let _ ← engine.settings.servers[entry.server]?
  return engine.launch now entry

def opening? (query : Octets) (waiter : Waiter κ γ) : Option (Engine κ γ) := do
  let server ← remainder? engine.nextServer engine.settings.servers.length
  let nextServer ← following? engine.settings server
  { engine with nextServer }.launch? now
    { engine.newEntry question query waiter with server }

def resolveUncached? (waiter : Waiter κ γ) (flags : Flags) :
    Option (Engine κ γ × Except Error (Resolution γ)) :=
  if flags.cacheOnly then
    some (engine, .ok (.ready (refusal question) waiter.context))
  else
    match engine.entry? question with
    | some entry => some (engine.join entry waiter, .ok .pending)
    | none =>
        match Message.buildQuery question
          (engine.ids (engine.generations + 1)) with
        | .error error => some (engine, .error error)
        | .ok query => do
            let engine ← engine.opening? now question query waiter
            return (engine, .ok .pending)

def resolve? (caller : κ) (context : γ) (flags : Flags) :
    Option (Engine κ γ × Except Error (Resolution γ)) :=
  if !engine.started then some (engine, .error .notStarted)
  else if flags.bypassCache then
    engine.resolveUncached? now question ⟨caller, context⟩ flags
  else
    match engine.lookup now question with
    | (engine, some answer) => some (engine, .ok (.ready answer context))
    | (engine, none) =>
        engine.resolveUncached? now question ⟨caller, context⟩ flags

def attemptFailed? (entry : InFlight κ γ) (failure : AttemptFailure) :
    Option (Engine κ γ × List (Delivery κ γ)) :=
  if entry.retriesDone < engine.settings.retries then do
    let server ← following? engine.settings entry.server
    let engine ← engine.launch? now
      { entry with
        retriesDone := entry.retriesDone + 1
        server := server
        protocol := initialProtocol engine.settings }
    return (engine, [])
  else some (engine.settle now entry (failure.answer entry.question))

/-- To judge a result, the engine looks up the server that gave it. -/
def onResult? (generation : Nat) (result : Except Error Octets) :
    Option (Engine κ γ × List (Delivery κ γ)) :=
  match engine.current? question generation with
  | none => some (engine, [])
  | some entry => do
      let _ ← engine.settings.servers[entry.server]?
      let engine := engine.retire generation
      match judge question entry.messageId entry.protocol
        engine.settings.negativeTtl result with
      | .settled answer => return engine.settle now entry answer
      | .truncated =>
          return (← engine.launch? now { entry with protocol := .tcp }, [])
      | .failed failure => engine.attemptFailed? now entry failure

def onAlarm? (generation : Nat) : Option (Engine κ γ × List (Delivery κ γ)) :=
  match engine.current? question generation with
  | none => some (engine, [])
  | some entry =>
      let engine := engine.retire generation
      let counters :=
        { engine.counters with timeouts := engine.counters.timeouts + 1 }
      { engine with counters }.attemptFailed? now entry .timeout

/-- What an event does, with its remainders and positions checked. -/
def perform? [DecidableEq κ] : Event κ γ → Option (Effect κ γ)
  | .resolve question caller context flags => do
      let (engine, resolution) ← engine.resolve? now question caller
          context flags
      return { engine, resolution? := some resolution }
  | .ended question generation (.result result) => do
      let (engine, deliveries) ← engine.onResult? now question generation result
      return { engine, deliveries }
  | .ended question generation .alarm => do
      let (engine, deliveries) ← engine.onAlarm? now question generation
      return { engine, deliveries }
  | event => return engine.perform now event

end Checked

structure InRange (engine : Engine κ γ) : Prop where
  served : engine.started = true → 0 < engine.settings.servers.length
  entries : ∀ entry ∈ engine.inFlight, entry.server <
    engine.settings.servers.length

variable {engine : Engine κ γ} {entry : InFlight κ γ} {now : Nat}
  {question : Question}

theorem following_lt {settings : Settings}
    (hservers : 0 < settings.servers.length) (server : Nat) :
    following settings server < settings.servers.length :=
  Nat.mod_lt _ hservers

theorem InRange.servers_pos (hinRange : engine.InRange)
    (hentry : entry ∈ engine.inFlight) :
    0 < engine.settings.servers.length :=
  Nat.lt_of_le_of_lt (Nat.zero_le _) (hinRange.entries entry hentry)

section Equal

theorem launch?_eq (hserver : entry.server < engine.settings.servers.length) :
    engine.launch? now entry = some (engine.launch now entry) := by
  simp [launch?, List.getElem?_eq_getElem hserver]

theorem opening?_eq (hservers : 0 < engine.settings.servers.length)
    (query : Octets) (waiter : Waiter κ γ) :
    engine.opening? now question query waiter =
      some (engine.openEntry now question query waiter) := by
  have hserver : engine.nextServer % engine.settings.servers.length <
      engine.settings.servers.length := Nat.mod_lt _ hservers
  simp only [opening?, remainder?_eq_some hservers, following?,
    Option.bind_eq_bind, Option.bind_some]
  exact launch?_eq hserver

theorem resolveUncached?_eq (hservers : 0 < engine.settings.servers.length)
    (waiter : Waiter κ γ) (flags : Flags) :
    engine.resolveUncached? now question waiter flags =
      some (engine.resolveUncached now question waiter flags) := by
  unfold resolveUncached? resolveUncached
  cases flags.cacheOnly with
  | true => rfl
  | false =>
      cases engine.entry? question with
      | some entry => rfl
      | none =>
          cases Message.buildQuery question
            (engine.ids (engine.generations + 1)) with
          | error error => rfl
          | ok query => simp [opening?_eq hservers]

theorem resolve?_eq
    (hserved : engine.started = true → 0 < engine.settings.servers.length)
    (caller : κ) (context : γ) (flags : Flags) :
    engine.resolve? now question caller context flags =
      some (engine.resolve now question caller context flags) := by
  unfold resolve? resolve
  cases hstarted : engine.started with
  | false => rfl
  | true =>
      have hservers := hserved hstarted
      cases hbypass : flags.bypassCache with
      | true => exact resolveUncached?_eq hservers _ flags
      | false =>
          cases hfound : (engine.cache.get now question).2 with
          | some answer =>
              rw [lookup_of_some hbypass hfound]
              rfl
          | none =>
              have hconsulted : 0 <
                  (engine.consulted now question
                    flags).settings.servers.length := hservers
              rw [lookup_of_none hbypass hfound]
              exact resolveUncached?_eq hconsulted _ flags

theorem attemptFailed?_eq (hservers : 0 < engine.settings.servers.length)
    (failure : AttemptFailure) :
    engine.attemptFailed? now entry failure =
      some (engine.attemptFailed now entry failure) := by
  unfold attemptFailed? attemptFailed
  by_cases hretries : entry.retriesDone < engine.settings.retries
  · have hnext : following? engine.settings entry.server =
        some (following engine.settings entry.server) :=
        remainder?_eq_some hservers _
    simp only [hretries, if_true, hnext, Option.bind_eq_bind, Option.bind_some]
    rw [launch?_eq (following_lt hservers entry.server)]
    rfl
  · simp only [hretries, if_false]

theorem onResult?_eq (hinRange : engine.InRange) (generation : Nat)
    (result : Except Error Octets) :
    engine.onResult? now question generation result =
      some (engine.onResult now question generation result) := by
  unfold onResult? onResult
  cases hcurrent : engine.current? question generation with
  | none => rfl
  | some entry =>
      have hentry := entry?_mem (entry?_of_current? hcurrent).1
      have hserver := hinRange.entries entry hentry
      have hservers : 0 < (engine.retire generation).settings.servers.length :=
        hinRange.servers_pos hentry
      simp only [List.getElem?_eq_getElem hserver, Option.bind_eq_bind,
        Option.bind_some, retire_settings]
      cases judge question entry.messageId entry.protocol
        engine.settings.negativeTtl result with
      | settled answer => rfl
      | truncated =>
          have hlaunch :
              (engine.retire generation).launch? now
              { entry with protocol := .tcp } =
              some ((engine.retire generation).launch now
                { entry with protocol := .tcp }) :=
            launch?_eq hserver
          simp only [hlaunch]
          rfl
      | failed failure => exact attemptFailed?_eq hservers failure

theorem onAlarm?_eq (hinRange : engine.InRange) (generation : Nat) :
    engine.onAlarm? now question generation =
      some (engine.onAlarm now question generation) := by
  unfold onAlarm? onAlarm
  cases hcurrent : engine.current? question generation with
  | none => rfl
  | some entry =>
      apply attemptFailed?_eq
      exact hinRange.servers_pos (entry?_mem (entry?_of_current? hcurrent).1)

theorem InRange.perform?_eq [DecidableEq κ] (hinRange : engine.InRange)
    (event : Event κ γ) :
    engine.perform? now event = some (engine.perform now event) := by
  cases event with
  | resolve question caller context flags =>
      rw [perform?, resolve?_eq hinRange.served]
      rfl
  | ended question generation ending =>
      cases ending with
      | result result =>
          rw [perform?, onResult?_eq hinRange]
          rfl
      | alarm =>
          rw [perform?, onAlarm?_eq hinRange]
          rfl
  | _ => rfl

end Equal

section Kept

theorem create_inRange (settings : Settings) (ids : Nat → UInt16) :
    (create settings ids : Engine κ γ).InRange :=
  ⟨nofun, nofun⟩

theorem sequel_server {settings : Settings} {ending : AttemptEnd}
    {server : Nat} {protocol : Protocol} {retriesDone : Nat}
    (hagain : entry.sequel settings ending =
      .again server protocol retriesDone) :
    server = entry.server ∨ server = following settings entry.server := by
  have hfailed {failure : AttemptFailure}
      (hagain : entry.afterFailure settings failure =
        .again server protocol retriesDone) :
      server = following settings entry.server := by
    rw [InFlight.afterFailure] at hagain
    split at hagain <;> cases hagain
    rfl
  cases ending with
  | alarm => exact .inr (hfailed hagain)
  | result result =>
      rw [InFlight.sequel] at hagain
      cases hjudge : judge entry.question entry.messageId entry.protocol
        settings.negativeTtl result with
      | settled answer =>
          rw [hjudge] at hagain
          cases hagain
      | truncated =>
          rw [hjudge] at hagain
          cases hagain
          exact .inl rfl
      | failed failure =>
          rw [hjudge] at hagain
          exact .inr (hfailed hagain)

section Moves

variable [DecidableEq κ] {event : Event κ γ} {effect : Effect κ γ}

theorem InRange.served_after (hinRange : engine.InRange)
    (hmove : engine.Move now event effect)
    (hrunning : effect.engine.started = true) :
    0 < engine.settings.servers.length := by
  cases hmove with
  | aside event started cache counters resolution? found? hstarted
    hresolution hspares =>
      rcases hstarted with rfl | ⟨-, hservers⟩
      · exact hinRange.served hrunning
      · exact List.length_pos_iff.mpr hservers
  | joined _ _ _ _ _ _ hstarted => exact hinRange.served hstarted
  | opened _ _ _ _ _ _ hstarted => exact hinRange.served hstarted
  | cancelled caller => exact hinRange.served hrunning
  | proceeded question generation ending entry hcurrent =>
      exact hinRange.servers_pos (entry?_mem (entry?_of_current? hcurrent).1)
  | stopped => cases hrunning

theorem InRange.entries_after (hinRange : engine.InRange)
    (hmove : engine.Move now event effect) :
    ∀ entry ∈ effect.engine.inFlight, entry.server <
      engine.settings.servers.length := by
  intro other hother
  have hkept := hinRange.entries other
  cases hmove with
  | aside => exact hkept hother
  | joined question caller context flags cache entry hstarted hentry =>
      rcases mem_putEntry hother with rfl | hold
      · exact hinRange.entries entry (entry?_mem hentry)
      · exact hkept hold
  | opened question caller context flags cache query hstarted hentry hquery =>
      rcases mem_putEntry hother with rfl | hold
      · exact Nat.mod_lt _ (hinRange.served hstarted)
      · exact hkept hold
  | cancelled caller =>
      obtain ⟨entry, hentry, rfl⟩ := List.mem_map.mp hother
      exact hinRange.entries entry hentry
  | proceeded question generation ending entry hcurrent =>
      have hentry := entry?_mem (entry?_of_current? hcurrent).1
      cases hsequel : entry.sequel engine.settings ending with
      | again server protocol retriesDone =>
          rw [hsequel] at hother
          rcases mem_putEntry hother with rfl | hold
          · rcases sequel_server hsequel with rfl | rfl
            · exact hinRange.entries entry hentry
            · exact following_lt (hinRange.servers_pos hentry) _
          · exact hkept hold
      | answered answer =>
          rw [hsequel] at hother
          exact hkept (List.mem_of_mem_filter hother)
  | stopped => cases hother

theorem InRange.move (hinRange : engine.InRange)
    (hmove : engine.Move now event effect) :
    effect.engine.InRange := by
  constructor <;> rw [hmove.settings_eq]
  · exact hinRange.served_after hmove
  · exact hinRange.entries_after hmove

end Moves

end Kept

end Engine

end DnsForwarder
