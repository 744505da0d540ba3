import DnsForwarder.Engine.Basic

/-! Requests to an engine. -/

namespace DnsForwarder.Engine

variable {κ γ : Type}

def countHit (engine : Engine κ γ) : Engine κ γ :=
  { engine with
    counters :=
      { engine.counters with cacheHits := engine.counters.cacheHits + 1 } }

def lookup (engine : Engine κ γ) (now : Nat) (question : Question) :
    Engine κ γ × Option Answer :=
  let (cache, answer?) := engine.cache.get now question
  let engine := { engine with cache }
  (if answer?.isSome then engine.countHit else engine, answer?)

def cachedTtl? (engine : Engine κ γ) (now : Nat) (question : Question) :
    Option Nat :=
  engine.cache.remaining? now question

def refusal (question : Question) : Answer :=
  .failure .refused Message.Rcode.refused question

def join (engine : Engine κ γ) (entry : InFlight κ γ) (waiter : Waiter κ γ) :
    Engine κ γ :=
  let engine :=
    engine.putEntry { entry with waiters := entry.waiters ++ [waiter] }
  { engine with
    counters :=
      { engine.counters with coalesced := engine.counters.coalesced + 1 } }

/-- Starts to ask for an answer. Each entry begins with the server behind that
of the entry before. -/
def openEntry (engine : Engine κ γ) (now : Nat) (question : Question)
    (query : Octets) (waiter : Waiter κ γ) : Engine κ γ :=
  let first := engine.generations + 1
  let server := engine.nextServer % engine.settings.servers.length
  let entry : InFlight κ γ :=
    { question, query, server
      messageId := engine.ids first
      protocol := initialProtocol engine.settings
      retriesDone := 0
      generation := 0
      waiters := [waiter] }
  { engine with nextServer := following engine.settings server }.launch now
    entry

def resolveUncached (engine : Engine κ γ) (now : Nat) (question : Question)
    (waiter : Waiter κ γ) (flags : Flags) :
    Engine κ γ × Except Error (Resolution γ) :=
  if flags.cacheOnly then
    (engine, .ok (.ready (refusal question) waiter.context))
  else
    match engine.entry? question with
    | some entry => (engine.join entry waiter, .ok .pending)
    | none =>
        match Message.buildQuery question
          (engine.ids (engine.generations + 1)) with
        | .error error => (engine, .error error)
        | .ok query =>
            (engine.openEntry now question query waiter, .ok .pending)

/-- Answers a request from the cache, lets it wait for an answer that is under
way, or starts to ask for one. -/
def resolve (engine : Engine κ γ) (now : Nat) (question : Question)
    (caller : κ) (context : γ) (flags : Flags) :
    Engine κ γ × Except Error (Resolution γ) :=
  if !engine.started then (engine, .error .notStarted)
  else if flags.bypassCache then
    engine.resolveUncached now question ⟨caller, context⟩ flags
  else
    match engine.lookup now question with
    | (engine, some answer) => (engine, .ok (.ready answer context))
    | (engine, none) =>
        engine.resolveUncached now question ⟨caller, context⟩ flags

/-- Removes the requests of a caller that still wait, and answers them. What is
under way goes on. -/
def cancel [DecidableEq κ] (engine : Engine κ γ) (caller : κ) :
    Engine κ γ × List (Waiter κ γ) :=
  ({ engine with
      inFlight := engine.inFlight.map fun entry =>
        { entry with
          waiters := entry.waiters.filter fun waiter =>
            waiter.caller ≠ caller } },
    engine.inFlight.flatMap fun entry => entry.waiters.filter fun waiter =>
      waiter.caller = caller)

end DnsForwarder.Engine
