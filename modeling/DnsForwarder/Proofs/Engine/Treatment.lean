import DnsForwarder.Engine.Resolve

/-! What comes of a request. The cases are those of the resolution: each says
what must hold for it, and the engine that it leaves behind. -/

namespace DnsForwarder.Engine

variable {κ γ : Type} (engine : Engine κ γ) (now : Nat) (question : Question)

def consulted (flags : Flags) : Engine κ γ :=
  { engine with
    cache :=
      if flags.bypassCache then engine.cache
        else (engine.cache.get now question).1 }

/-- A request was not to look into the cache, or found no answer there. -/
def Misses (flags : Flags) : Prop :=
  flags.bypassCache = false → (engine.cache.get now question).2 = none

section LookUp

variable {engine now question} {flags : Flags}
  (hcached : flags.bypassCache = false)
include hcached

theorem lookup_of_some {answer : Answer}
    (hfound : (engine.cache.get now question).2 = some answer) :
    engine.lookup now question =
      ((engine.consulted now question flags).countHit, some answer) := by
  simp [lookup, hfound, consulted, hcached]

theorem lookup_of_none (hmissed : (engine.cache.get now question).2 = none) :
    engine.lookup now question =
      (engine.consulted now question flags, none) := by
  simp [lookup, hmissed, consulted, hcached]

end LookUp

inductive Treatment (caller : κ) (context : γ) (flags : Flags) :
    Engine κ γ → Except Error (Resolution γ) → Prop
  | unstarted (hstarted : engine.started = false) :
      Treatment caller context flags engine (.error .notStarted)
  | served (answer : Answer) (hstarted : engine.started = true)
      (hcached : flags.bypassCache = false)
      (hfound : (engine.cache.get now question).2 = some answer) :
      Treatment caller context flags
        (engine.consulted now question flags).countHit
        (.ok (.ready answer context))
  | refused (hstarted : engine.started = true)
    (hmisses : engine.Misses now question flags)
      (hcacheOnly : flags.cacheOnly = true) :
      Treatment caller context flags (engine.consulted now question flags)
        (.ok (.ready (refusal question) context))
  | joined (entry : InFlight κ γ) (hstarted : engine.started = true)
      (hmisses : engine.Misses now question flags)
      (hasks : flags.cacheOnly = false)
      (hentry : engine.entry? question = some entry) :
      Treatment caller context flags
        ((engine.consulted now question flags).join entry ⟨caller, context⟩)
        (.ok .pending)
  | rejected (error : Error) (hstarted : engine.started = true)
      (hmisses : engine.Misses now question flags)
      (hasks : flags.cacheOnly = false)
      (hentry : engine.entry? question = none)
      (hquery : Message.buildQuery question
        (engine.ids (engine.generations + 1)) = .error error) :
      Treatment caller context flags (engine.consulted now question flags)
        (.error error)
  | opened (query : Octets) (hstarted : engine.started = true)
      (hmisses : engine.Misses now question flags)
      (hasks : flags.cacheOnly = false)
      (hentry : engine.entry? question = none)
      (hquery : Message.buildQuery question
        (engine.ids (engine.generations + 1)) = .ok query) :
      Treatment caller context flags
        ((engine.consulted now question flags).openEntry now question query
          ⟨caller, context⟩)
        (.ok .pending)

variable (caller : κ) (context : γ) (flags : Flags)

theorem resolveUncached_treatment (hstarted : engine.started = true)
    (hmisses : engine.Misses now question flags) :
    let outcome :=
      (engine.consulted now question flags).resolveUncached now question
        ⟨caller, context⟩ flags
    engine.Treatment now question caller context flags outcome.1 outcome.2 := by
  intro outcome
  cases hcacheOnly : flags.cacheOnly with
  | true =>
      simp only [outcome, resolveUncached, hcacheOnly, if_true]
      exact .refused hstarted hmisses hcacheOnly
  | false =>
      have hsame :
          Engine.entry? (engine.consulted now question flags) question =
          engine.entry? question := rfl
      have hid : (engine.consulted now question flags).ids
          ((engine.consulted now question flags).generations + 1) =
          engine.ids (engine.generations + 1) := rfl
      simp only [outcome, resolveUncached, hcacheOnly, Bool.false_eq_true,
        if_false, hsame, hid]
      cases hentry : engine.entry? question with
      | some entry => exact .joined entry hstarted hmisses hcacheOnly hentry
      | none =>
          cases hquery : Message.buildQuery question
            (engine.ids (engine.generations + 1)) with
          | error error =>
              exact .rejected error hstarted hmisses hcacheOnly hentry hquery
          | ok query =>
              exact .opened query hstarted hmisses hcacheOnly hentry hquery

theorem resolve_treatment :
    engine.Treatment now question caller context flags
      (engine.resolve now question caller context flags).1
      (engine.resolve now question caller context flags).2 := by
  have huncached :=
    engine.resolveUncached_treatment now question caller context flags
  cases hstarted : engine.started with
  | false =>
      simp only [resolve, hstarted, Bool.not_false, if_true]
      exact .unstarted hstarted
  | true =>
      cases hbypass : flags.bypassCache with
      | true =>
          have hconsulted : engine.consulted now question flags = engine := by
            simp [consulted, hbypass]
          have hmisses : engine.Misses now question flags :=
            by simp [Misses, hbypass]
          simpa [resolve, hstarted, hbypass, hconsulted] using huncached
            hstarted hmisses
      | false =>
          cases hfound : (engine.cache.get now question).2 with
          | some answer =>
              have hlookup := lookup_of_some hbypass hfound
              simp only [resolve, hstarted, hbypass, hlookup, Bool.not_true,
                Bool.false_eq_true, if_false]
              exact .served answer hstarted hbypass hfound
          | none =>
              have hlookup := lookup_of_none hbypass hfound
              simp only [resolve, hstarted, hbypass, hlookup, Bool.not_true,
                Bool.false_eq_true, if_false]
              exact huncached hstarted fun _ => hfound

end DnsForwarder.Engine
