import DnsForwarder.Proofs.Engine.Attempts

/-! The course of an entry. A reference recursion says from what came of the
attempts alone which server each of them asks, over which protocol, and which
answer ends them. An observer of one question writes down what an engine does
for it, and every entry goes the way of the recursion. -/

namespace DnsForwarder

inductive Outcome where
  | timeout
  | broken
  | unreadable
  | foreign
  | matching (response : Response)

namespace Outcome

def ofEnd (question : Question) (messageId : UInt16) : AttemptEnd → Outcome
  | .alarm => .timeout
  | .result (.error _) => .broken
  | .result (.ok bytes) =>
      match Response.parse bytes with
      | .error _ => .unreadable
      | .ok response =>
          if response.answers messageId question then .matching response
            else .foreign

/-- Only a response over UDP asks for another protocol. -/
def asksForTcp : Protocol → Outcome → Bool
  | .udp, .matching response => response.truncated
  | _, _ => false

/-- The answer that a server gave, if it spoke of the data at all. -/
def answer? (settings : Settings) (question : Question) :
    Outcome → Option Answer
  | .matching response =>
      let answer (status : Status) : Answer :=
        .ofRecords status response.rcode question response.records
          settings.negativeTtl
      if response.rcode = Message.Rcode.noError then
        some (answer (if response.hasRecordsFor question then .ok else .noData))
      else if response.rcode = Message.Rcode.nxDomain then
        some (answer .noDomain)
      else none
  | _ => none

def lastAnswer (question : Question) : Outcome → Answer
  | .timeout => .failure .timeout 0 question
  | .matching response =>
      if response.rcode = Message.Rcode.refused then
        .failure .refused 5 question
      else .failure .error response.rcode question
  | _ => .failure .error 0 question

end Outcome

/-- The servers that are asked, with the protocols, and the answer that comes of
it. -/
structure Course where
  attempts : List (Nat × Protocol)
  answer? : Option Answer

def Course.after (course : Course) (earlier : List (Nat × Protocol)) : Course :=
  { course with attempts := earlier ++ course.attempts }

def course (settings : Settings) (question : Question) (server : Nat)
    (protocol : Protocol) (retriesDone : Nat) : List Outcome → Course
  | [] => ⟨[(server, protocol)], none⟩
  | outcome :: outcomes =>
      if outcome.asksForTcp protocol then
        (course settings question server .tcp retriesDone outcomes).after
          [(server, protocol)]
      else
        match outcome.answer? settings question with
        | some answer => ⟨[(server, protocol)], some answer⟩
        | none =>
            if retriesDone < settings.retries then
              (course settings question ((server + 1) % settings.servers.length)
                (if settings.alwaysTcp then .tcp else .udp)
                (retriesDone + 1) outcomes).after
                [(server, protocol)]
            else ⟨[(server, protocol)], some (outcome.lastAnswer question)⟩

namespace Course

theorem after_after (course : Course) (early late : List (Nat × Protocol)) :
    (course.after late).after early = course.after (early ++ late) := by
  simp [after]

end Course

namespace InFlight

variable {κ γ : Type}

def course (entry : InFlight κ γ) (settings : Settings)
    (outcomes : List Outcome) : Course :=
  DnsForwarder.course settings entry.question entry.server entry.protocol
    entry.retriesDone outcomes

/-- The current attempt of an entry and what is known to follow it. -/
def courseAfter (entry : InFlight κ γ) (settings : Settings)
    (outcomes : List Outcome) :
    Sequel → Course
  | .again server protocol retriesDone =>
      ({ entry with server, protocol, retriesDone }.course settings
          outcomes).after [(entry.server, entry.protocol)]
  | .answered answer => ⟨[(entry.server, entry.protocol)], some answer⟩

variable (entry : InFlight κ γ) (settings : Settings) (outcomes : List Outcome)

theorem course_of_failure {outcome : Outcome} {failure : AttemptFailure}
    (hcomplete : outcome.asksForTcp entry.protocol = false)
    (hanswer : outcome.answer? settings entry.question = none)
    (hfailure : failure.answer entry.question =
      outcome.lastAnswer entry.question) :
    entry.course settings (outcome :: outcomes) =
      entry.courseAfter settings outcomes
        (entry.afterFailure settings failure) := by
  simp only [course, DnsForwarder.course, hcomplete, hanswer, afterFailure]
  by_cases hretries : entry.retriesDone < settings.retries
  · simp [hretries, courseAfter, course, Engine.following,
      Engine.initialProtocol]
  · simp [hretries, courseAfter, hfailure]

theorem course_of_answer {outcome : Outcome} {answer : Answer}
    (hcomplete : outcome.asksForTcp entry.protocol = false)
    (hanswer : outcome.answer? settings entry.question = some answer) :
    entry.course settings (outcome :: outcomes) =
      entry.courseAfter settings outcomes (.answered answer) := by
  simp [course, DnsForwarder.course, hcomplete, hanswer, courseAfter]

theorem course_of_matching {response : Response}
    (hcomplete : (Outcome.matching response).asksForTcp entry.protocol =
      false) :
    entry.course settings (.matching response :: outcomes) =
      entry.courseAfter settings outcomes
        (entry.afterVerdict settings
          (response.verdict entry.question settings.negativeTtl)) := by
  by_cases hsuccess : response.rcode = Message.Rcode.noError
  · rw [Response.verdict, if_pos hsuccess]
    refine entry.course_of_answer settings outcomes hcomplete ?_
    rw [Outcome.answer?, if_pos hsuccess, Response.dataStatus]
  · by_cases hmissing : response.rcode = Message.Rcode.nxDomain
    · rw [Response.verdict, if_neg hsuccess, if_pos hmissing]
      refine entry.course_of_answer settings outcomes hcomplete ?_
      rw [Outcome.answer?, if_neg hsuccess, if_pos hmissing]
    · rw [Response.verdict, if_neg hsuccess, if_neg hmissing]
      have hanswer :
          (Outcome.matching response).answer? settings entry.question =
          none := by
        rw [Outcome.answer?, if_neg hsuccess, if_neg hmissing]
      by_cases hrefused : response.rcode = Message.Rcode.refused
      · rw [if_pos hrefused]
        refine entry.course_of_failure settings outcomes hcomplete hanswer ?_
        rw [Outcome.lastAnswer, if_pos hrefused, AttemptFailure.answer]
      · rw [if_neg hrefused]
        refine entry.course_of_failure settings outcomes hcomplete hanswer ?_
        rw [Outcome.lastAnswer, if_neg hrefused, AttemptFailure.answer]

/-- What follows an attempt is what the recursion says. -/
theorem course_cons (ending : AttemptEnd) :
    entry.course settings
      (.ofEnd entry.question entry.messageId ending :: outcomes) =
      entry.courseAfter settings outcomes (entry.sequel settings ending) := by
  have hnothing {outcome : Outcome}
      (hcomplete : outcome.asksForTcp entry.protocol = false)
      (hanswer : outcome.answer? settings entry.question = none)
      (hlast : outcome.lastAnswer entry.question =
        .failure .error 0 entry.question) :
      entry.course settings (outcome :: outcomes) =
        entry.courseAfter settings outcomes
        (entry.afterFailure settings (.error 0)) :=
    entry.course_of_failure settings outcomes hcomplete hanswer hlast.symm
  cases ending with
  | alarm =>
      refine entry.course_of_failure settings outcomes ?_ rfl rfl
      cases entry.protocol <;> rfl
  | result result =>
      cases result with
      | error error =>
          refine hnothing ?_ rfl rfl
          cases entry.protocol <;> rfl
      | ok bytes =>
          cases hparse : Response.parse bytes with
          | error error =>
              simp only [Outcome.ofEnd, sequel, judge, hparse]
              refine hnothing ?_ rfl rfl
              cases entry.protocol <;> rfl
          | ok response =>
              simp only [Outcome.ofEnd, sequel, judge, hparse]
              by_cases hanswers : response.answers entry.messageId
                entry.question
              · simp only [hanswers, if_true]
                by_cases htruncated : response.truncated ∧ entry.protocol = .udp
                · rw [if_pos htruncated]
                  simp [htruncated, course, DnsForwarder.course,
                    Outcome.asksForTcp, afterVerdict, courseAfter]
                · rw [if_neg htruncated]
                  apply course_of_matching
                  cases hprotocol : entry.protocol with
                  | udp =>
                      simpa [hprotocol, Outcome.asksForTcp] using htruncated
                  | tcp => rfl
              · rw [if_neg hanswers, if_neg hanswers]
                refine hnothing ?_ rfl rfl
                cases entry.protocol <;> rfl

end InFlight

end DnsForwarder
