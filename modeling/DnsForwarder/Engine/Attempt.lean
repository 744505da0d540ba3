import DnsForwarder.Engine.Basic

/-! How an attempt ends and what comes after it: an answer, the same server over
TCP, the next server, or the failure of the last attempt. -/

namespace DnsForwarder

inductive AttemptFailure where
  | timeout
  | refused
  | error (rcode : UInt16)
  deriving DecidableEq, Repr

def AttemptFailure.answer (failure : AttemptFailure) (question : Question) :
    Answer :=
  match failure with
  | .timeout => .failure .timeout 0 question
  | .refused => .failure .refused 5 question
  | .error rcode => .failure .error rcode question

inductive Verdict where
  | settled (answer : Answer)
  | truncated
  | failed (failure : AttemptFailure)
  deriving DecidableEq, Repr

namespace Response

def dataStatus (response : Response) (question : Question) : Status :=
  if response.hasRecordsFor question then .ok else .noData

def verdict (response : Response) (question : Question) (negativeTtl : UInt32) :
    Verdict :=
  let answer (status : Status) :=
    Answer.ofRecords status response.rcode question response.records negativeTtl
  if response.rcode = Message.Rcode.noError then
    .settled (answer (response.dataStatus question))
  else if response.rcode = Message.Rcode.nxDomain then
    .settled (answer .noDomain)
  else if response.rcode = Message.Rcode.refused then .failed .refused
  else .failed (.error response.rcode)

end Response

/-- Judges the result of an exchange. Whatever is no response to the query
counts as a failure without a response code, and an incomplete response over UDP
is to be asked for again. -/
def judge (question : Question) (messageId : UInt16) (protocol : Protocol)
    (negativeTtl : UInt32) (result : Except Error Octets) : Verdict :=
  match result with
  | .error _ => .failed (.error 0)
  | .ok bytes =>
      match Response.parse bytes with
      | .error _ => .failed (.error 0)
      | .ok response =>
          if response.answers messageId question then
            if response.truncated ∧ protocol = .udp then .truncated
            else response.verdict question negativeTtl
          else .failed (.error 0)

namespace Engine

variable {κ γ : Type}

def deliveries (waiters : List (Waiter κ γ)) (answer : Answer) :
    List (Delivery κ γ) :=
  waiters.map fun waiter => ⟨waiter, answer⟩

def settle (engine : Engine κ γ) (now : Nat) (entry : InFlight κ γ)
    (answer : Answer) :
    Engine κ γ × List (Delivery κ γ) :=
  let engine := (engine.retire entry.generation).dropEntry entry.question
  ({ engine with cache := (engine.cache.insert now answer).1 },
    deliveries entry.waiters answer)

def attemptFailed (engine : Engine κ γ) (now : Nat) (entry : InFlight κ γ)
    (failure : AttemptFailure) : Engine κ γ × List (Delivery κ γ) :=
  if entry.retriesDone < engine.settings.retries then
    let entry :=
      { entry with
        retriesDone := entry.retriesDone + 1
        server := following engine.settings entry.server
        protocol := initialProtocol engine.settings }
    (engine.launch now entry, [])
  else engine.settle now entry (failure.answer entry.question)

def current? (engine : Engine κ γ) (question : Question) (generation : Nat) :
    Option (InFlight κ γ) :=
  (engine.entry? question).filter fun entry => entry.generation == generation

/-- The result of an exchange is in. A result of another attempt than the
current one changes nothing. -/
def onResult (engine : Engine κ γ) (now : Nat) (question : Question)
    (generation : Nat) (result : Except Error Octets) :
    Engine κ γ × List (Delivery κ γ) :=
  match engine.current? question generation with
  | none => (engine, [])
  | some entry =>
      let engine := engine.retire generation
      match judge question entry.messageId entry.protocol
        engine.settings.negativeTtl result with
      | .settled answer => engine.settle now entry answer
      | .truncated => (engine.launch now { entry with protocol := .tcp }, [])
      | .failed failure => engine.attemptFailed now entry failure

/-- An alarm rings. The alarm of another attempt than the current one changes
nothing. -/
def onAlarm (engine : Engine κ γ) (now : Nat) (question : Question)
    (generation : Nat) :
    Engine κ γ × List (Delivery κ γ) :=
  match engine.current? question generation with
  | none => (engine, [])
  | some entry =>
      let engine := engine.retire generation
      let counters :=
        { engine.counters with timeouts := engine.counters.timeouts + 1 }
      { engine with counters }.attemptFailed now entry .timeout

end Engine

end DnsForwarder
