import DnsForwarder.Proofs.Server.Echo
import DnsForwarder.Proofs.Server.Slots

/-! Replies that cannot be sent. Lines may open and close at any time, and every
reply that is handed to a closed one fails. The failures of answers are counted
and reported, each once and after its request gave its slot back; the failures
of replies that report errors are neither. -/

namespace DnsForwarder

open Message

variable {κ γ : Type}

namespace Server

def failure? (server : Server) (reply : SentReply) : Option Error :=
  match (server.send reply.responder reply.bytes).2 with
  | .ok () => none
  | .error error => some error

def sent (before after : Server) : List SentReply :=
  after.handed.drop before.handed.length

def failures (before after : Server) : List Error :=
  (before.sent after).filterMap before.failure?

/-- These failures, and no other ones, were counted and reported. -/
structure Notes (before after : Server) (noted : List Report) : Prop where
  handed : before.handed <+: after.handed
  hooked : after.hooked = before.hooked
  sendFailures : after.sendFailures = before.sendFailures + noted.length
  reports :
    after.reports = before.reports ++ if before.hooked then noted else []

/-- Failures are noted if the replies are answers, each as the slots are in the
end; others are not. -/
def NotesAnswers (before after : Server) (answers : Bool) : Prop :=
  before.Notes after
    (if answers then
      (before.failures after).map (⟨·, after.pool.inUse⟩)
    else [])

variable {server before after : Server} {context : QueryContext}
  {answer : Answer} {responder : Responder} {bytes : Octets} {reply : SentReply}

theorem failures_of_handed (hhanded : after.handed = before.handed) :
    before.failures after = [] := by
  rw [failures, sent, hhanded, List.drop_length, List.filterMap_nil]

theorem failures_of_reply (hhanded : after.handed = before.handed ++ [reply]) :
    before.failures after = (before.failure? reply).toList := by
  rw [failures, sent, hhanded, List.drop_left]
  cases hfailure : before.failure? reply <;> simp [hfailure]

theorem handed_eq_append_sent (hhanded : before.handed <+: after.handed) :
    after.handed = before.handed ++ before.sent after := by
  obtain ⟨replies, hreplies⟩ := hhanded
  rw [sent, ← hreplies, List.drop_left]

theorem Notes.none (hhanded : before.handed <+: after.handed)
    (hhooked : after.hooked = before.hooked)
    (hcount : after.sendFailures = before.sendFailures)
    (hreports : after.reports = before.reports) : before.Notes after [] := by
  refine ⟨hhanded, hhooked, hcount, ?_⟩
  rw [hreports, ite_self, List.append_nil]

theorem send_eq_error {error : Error}
    (hsend : (server.send responder bytes).2 = .error error) :
    ∃ peer reason, error = .sendFailed peer reason := by
  simp only [send] at hsend
  split at hsend
  next reason _ =>
    cases hsend
    exact ⟨_, reason, rfl⟩
  next => cases hsend

theorem Notes.append {middle : Server} {noted others : List Report}
    (hfirst : before.Notes middle noted) (hsecond : middle.Notes after others) :
    before.Notes after (noted ++ others) where
  handed := hfirst.handed.trans hsecond.handed
  hooked := hsecond.hooked.trans hfirst.hooked
  sendFailures := by
    rw [hsecond.sendFailures, hfirst.sendFailures, List.length_append,
      Nat.add_assoc]
  reports := by
    rw [hsecond.reports, hfirst.reports, hfirst.hooked]
    cases before.hooked <;> simp

theorem sendError_notes (server : Server) (responder : Responder)
    (id : UInt16) (opcode : Opcode) (inquiry? : Option Inquiry)
    (rcode : Rcode) :
    server.Notes (server.sendError responder id opcode inquiry? rcode).1
      [] := by
  unfold sendError
  split
  next => exact .none (List.prefix_refl _) rfl rfl rfl
  next => exact .none (List.prefix_append _ _) rfl rfl rfl

theorem replyBytes_ne_sendFailed {error : Error}
    (hreply : server.replyBytes context answer = .error error)
    (peer reason : String) :
    error ≠ .sendFailed peer reason := by
  have hcause {header : ReplyHeader} {records : List Record}
      (hbuild : buildResponse header context.inquiry?
        (rcodeOf answer.status) records =
        .error error) : error ≠ .sendFailed peer reason := by
    obtain ⟨fault, rfl⟩ | rfl := buildResponse_eq_error hbuild <;> nofun
  rcases server.replyBytes_cases context answer with
    ⟨first, hfirst, hsame⟩ | ⟨whole, -, hsame | hsame⟩
  · cases hsame.symm.trans hreply
    exact hcause hfirst
  · cases hsame.symm.trans hreply
  · exact hcause (hsame.symm.trans hreply)

theorem conclude_unwritten {error : Error}
    (hresponder : context.responder? = some responder)
    (hreply : server.replyBytes context answer = .error error) :
    (server.conclude context answer).1 = server.release context := by
  have hquiet : (server.release context).report (.error error) =
      server.release context := by
    cases error with
    | sendFailed peer reason =>
        exact absurd rfl (replyBytes_ne_sendFailed hreply peer reason)
    | _ => rfl
  simp only [conclude, respond, hresponder, hreply, hquiet]

theorem conclude_written (hresponder : context.responder? = some responder)
    (hreply : server.replyBytes context answer = .ok bytes) :
    (server.conclude context answer).1 =
      ((server.send responder bytes).1.release context).report
        (server.send responder bytes).2 := by
  simp only [conclude, respond, hresponder, hreply]

/-- An answer that can be written is sent, and noted if that fails, when the
slot is back. -/
theorem conclude_notes (server : Server) (answer : Answer)
    (hresponder : context.responder? = some responder) :
    server.NotesAnswers (server.conclude context answer).1 true := by
  change server.Notes _ (List.map _ _)
  generalize hafter : (server.conclude context answer).1 = after
  cases hreply : server.replyBytes context answer with
  | error error =>
      have hhanded : (server.release context).handed = server.handed := rfl
      rw [← hafter, conclude_unwritten hresponder hreply,
        failures_of_handed hhanded]
      exact .none (List.prefix_refl _) rfl rfl rfl
  | ok bytes =>
      have hconclude := hafter.symm.trans (conclude_written hresponder hreply)
      have hhanded : after.handed = server.handed ++ [⟨responder, bytes⟩] := by
        rw [hconclude, report_handed]
        rfl
      have hgrown : server.handed <+: after.handed :=
        hhanded ▸ List.prefix_append _ _
      rw [failures_of_reply hhanded, failure?]
      rw [hconclude] at hgrown ⊢
      cases hsend : (server.send responder bytes).2 with
      | ok =>
          rw [hsend] at hgrown
          exact .none hgrown rfl rfl rfl
      | error error =>
          obtain ⟨peer, reason, rfl⟩ := send_eq_error hsend
          rw [hsend] at hgrown
          refine ⟨hgrown, rfl, rfl, ?_⟩
          cases hhooked : server.hooked <;>
            simp [report, release, send, hhooked]

theorem Notes.of_pool {pool : ContextPool} {noted : List Report}
    (hnotes : Notes { server with pool } after noted) :
    server.Notes after noted :=
  ⟨hnotes.handed, hnotes.hooked, hnotes.sendFailures, hnotes.reports⟩

theorem NotesAnswers.quiet (hhanded : after.handed = before.handed)
    (hhooked : after.hooked = before.hooked)
    (hcount : after.sendFailures = before.sendFailures)
    (hreports : after.reports = before.reports) (answers : Bool) :
    before.NotesAnswers after answers := by
  rw [NotesAnswers, failures_of_handed hhanded, List.map_nil, ite_self]
  exact .none (hhanded ▸ List.prefix_refl _) hhooked hcount hreports

/-- Whether received bytes are a request whose question the engine takes. -/
def admits (server : Server) (engine : Engine (Party κ) γ) (now : Nat)
    (context : γ) (bytes : Octets) : Bool :=
  match decode? bytes with
  | some request =>
      !request.header.isResponse && server.takes engine now context request
  | none => false

theorem dispatch_notes (box : QueryContext → γ) (engine : Engine (Party κ) γ)
    (server : Server) (now : Nat) (context : γ) (inbound : Inbound) :
    server.NotesAnswers
      (server.dispatch box engine now inbound.bytes inbound.responder).2.1
      (server.admits engine now context inbound.bytes) := by
  unfold dispatch admits
  cases decode? inbound.bytes with
  | none =>
      cases idOf? inbound.bytes with
      | none => exact .quiet rfl rfl rfl rfl false
      | some id =>
          exact server.sendError_notes inbound.responder id query
            none Rcode.formErr
  | some request =>
      cases hresponse : request.header.isResponse with
      | true =>
          simp only [hresponse, if_true]
          exact .quiet rfl rfl rfl rfl _
      | false =>
          simp only [hresponse, Bool.false_eq_true, if_false, Bool.not_false,
            Bool.true_and]
          have hhandling :=
            handle_handling box engine server now context request
              inbound.responder
          generalize server.takes engine now context request = taken
            at hhandling ⊢
          generalize server.handle box engine now request
            inbound.responder = outcome at hhandling ⊢
          cases hhandling with
          | refused htaken =>
              rw [htaken]
              exact (sendError_notes _ _ _ _ _ _).of_pool
          | parked htaken =>
              exact .quiet (by rfl) (by rfl) (by rfl) (by rfl) taken
          | answered htaken hquestion =>
              rw [htaken]
              exact (conclude_notes _ _ rfl).of_pool

end Server

namespace Service

def Held (service : Service κ γ) : Prop :=
  ∀ request ∈ service.engine.parked ++ service.inHand.map Delivery.request,
    ∀ context ∈ request.waiter.query?, context.responder?.isSome

variable [DecidableEq κ] {service : Service κ γ} {capacity : Nat}

/-- Whether the reply of a turn, if there is one, answers a question that the
engine took. Other replies report errors. -/
def answers (service : Service κ γ) : Turn κ γ → Bool
  | .receive inbound =>
      service.server.admits service.engine service.now (.query {}) inbound.bytes
  | .perform _ => false
  | .hand => true

theorem Held.receive (hheld : service.Held) (harmed : service.engine.Armed)
    (inbound : Inbound) :
    (service.turn (.receive inbound)).Held := by
  have hreception :=
    Server.dispatch_reception .query harmed service.server service.now inbound
  simp only [Held, turn]
  generalize service.server.dispatch .query service.engine service.now
    inbound.bytes inbound.responder = outcome at hreception ⊢
  have hkept {parked : List (Request (Party κ) (Parcel γ))}
      (hparked : parked.Perm service.engine.parked) :
      ∀ request ∈ parked ++ service.inHand.map Delivery.request,
        ∀ context ∈ request.waiter.query?, context.responder?.isSome :=
    fun request hrequest =>
      hheld request ((hparked.append_right _).mem_iff.mp hrequest)
  cases hreception with
  | ignored => exact hheld
  | closed _ _ hparked => exact hkept hparked
  | @parked _ _ question filled _ _ hparked hasks =>
      intro request hrequest
      rcases List.mem_append.mp hrequest with hwaits | hdue
      · rcases List.mem_append.mp (hparked.mem_iff.mp hwaits) with hold | hnew
        · exact hheld request (List.mem_append_left _ hold)
        · obtain rfl := List.mem_singleton.mp hnew
          obtain ⟨_, _, -, -, rfl⟩ := hasks
          intro context hcontext
          cases hcontext
          rfl
      · exact hheld request (List.mem_append_right _ hdue)

theorem Held.perform (hheld : service.Held) (harmed : service.engine.Armed)
    (event : Engine.Event κ γ) : (service.turn (.perform event)).Held := by
  intro request hrequest context hcontext
  rcases mem_of_perform harmed event hrequest with hold | ⟨caller, hcaller⟩
  · exact hheld request hold context hcontext
  · obtain ⟨question, ⟨caller', parcel⟩⟩ := request
    obtain rfl : caller' = .guest caller := hcaller
    cases hcontext

theorem Held.hand (hheld : service.Held) : (service.turn .hand).Held := by
  cases hinHand : service.inHand with
  | nil =>
      simp only [turn, hinHand]
      exact hheld
  | cons delivery inHand =>
      have hrest :
          ∀ request ∈ service.engine.parked ++ inHand.map Delivery.request,
          ∀ context ∈ request.waiter.query?, context.responder?.isSome := by
        intro request hrequest
        apply hheld
        rw [hinHand]
        rcases List.mem_append.mp hrequest with hwaits | hdue
        · exact List.mem_append_left _ hwaits
        · exact List.mem_append_right _ (List.mem_cons_of_mem _ hdue)
      simp only [turn, hinHand]
      split <;> exact hrest

theorem Held.turn (hheld : service.Held) (harmed : service.engine.Armed)
    (turn : Turn κ γ) :
    (service.turn turn).Held := by
  cases turn with
  | receive inbound => exact hheld.receive harmed inbound
  | perform event => exact hheld.perform harmed event
  | hand => exact hheld.hand

theorem Held.turn_notes (hheld : service.Held) (turn : Turn κ γ) :
    service.server.NotesAnswers (service.turn turn).server
      (service.answers turn) := by
  cases turn with
  | receive inbound =>
      exact Server.dispatch_notes .query service.engine service.server
        service.now (.query {}) inbound
  | perform event => exact .quiet rfl rfl rfl rfl _
  | hand =>
      cases hinHand : service.inHand with
      | nil =>
          simp only [Service.turn, hinHand]
          exact .quiet rfl rfl rfl rfl _
      | cons delivery inHand =>
          cases hquery : delivery.waiter.query? with
          | none =>
              simp only [Service.turn, hinHand, hquery]
              exact .quiet rfl rfl rfl rfl _
          | some context =>
              have hresponder :=
                hheld delivery.request (by simp [hinHand]) context hquery
              obtain ⟨responder, hresponder⟩ :=
                Option.isSome_iff_exists.mp hresponder
              simp only [Service.turn, hinHand, hquery]
              exact Server.conclude_notes service.server
                delivery.answer hresponder

end Service

/-- A turn, and the lines that carry no replies while it is taken, and why. -/
structure Moment (κ γ : Type) where
  faults : List (Nat × String)
  turn : Turn κ γ

/-- A reply that could not be sent: whether it was an answer to a question that
the engine took, the error, and how many requests were without an answer
afterwards. -/
structure Failure where
  isAnswer : Bool
  report : Report
  deriving DecidableEq, Repr

namespace Service

variable [DecidableEq κ]

def facing (service : Service κ γ) (faults : List (Nat × String)) :
    Service κ γ :=
  { service with server := { service.server with faults } }

def live (service : Service κ γ) (moment : Moment κ γ) : Service κ γ :=
  (service.facing moment.faults).turn moment.turn

def failures (service : Service κ γ) (moment : Moment κ γ) : List Failure :=
  let after := service.live moment
  ((service.facing moment.faults).server.failures after.server).map fun error =>
    ⟨service.answers moment.turn, error, after.waiting + after.due⟩

def replies (service : Service κ γ) : List (Moment κ γ) → List SentReply
  | [] => []
  | moment :: moments =>
      service.server.sent (service.live moment).server ++
        (service.live moment).replies moments

def ledger (service : Service κ γ) : List (Moment κ γ) → List Failure
  | [] => []
  | moment :: moments =>
      service.failures moment ++ (service.live moment).ledger moments

variable {service : Service κ γ} {capacity : Nat}

theorem Allotted.live (hallotted : service.Allotted capacity)
    (moment : Moment κ γ) :
    (service.live moment).Allotted capacity := by
  have hfacing : (service.facing moment.faults).Allotted capacity :=
    ⟨hallotted.armed, hallotted.queries, hallotted.balanced,
      hallotted.capacity_eq⟩
  exact hfacing.turn moment.turn

theorem Held.live (hheld : service.Held) (harmed : service.engine.Armed)
    (moment : Moment κ γ) :
    (service.live moment).Held := by
  have hfacing : (service.facing moment.faults).Held := hheld
  exact hfacing.turn harmed moment.turn

theorem Held.live_notes (hheld : service.Held)
    (hallotted : service.Allotted capacity) (moment : Moment κ γ) :
    service.server.Notes (service.live moment).server
      (((service.failures moment).filter Failure.isAnswer).map
        Failure.report) := by
  have hfacing : (service.facing moment.faults).Held := hheld
  obtain ⟨hhanded, hhooked, hcount, hreports⟩ := hfacing.turn_notes moment.turn
  have hinUse := (hallotted.live moment).balanced.inUse
  have hnoted :
      ((service.failures moment).filter Failure.isAnswer).map Failure.report =
      if (service.facing moment.faults).answers moment.turn then
        ((service.facing moment.faults).server.failures
            (service.live moment).server).map
          (⟨·, (service.live moment).server.pool.inUse⟩)
      else [] := by
    have hanswers : (service.facing moment.faults).answers moment.turn =
        service.answers moment.turn := rfl
    rw [hinUse, hanswers]
    cases hanswer : service.answers moment.turn <;>
      simp [Service.failures, hanswer, List.filter_map, Function.comp_def]
  rw [hnoted]
  exact ⟨hhanded, hhooked, hcount, hreports⟩

theorem Held.run_notes (hheld : service.Held)
    (hallotted : service.Allotted capacity) (moments : List (Moment κ γ)) :
    let after := (moments.foldl Service.live service).server
    after.handed = service.server.handed ++ service.replies moments ∧
      service.server.Notes after
        (((service.ledger moments).filter Failure.isAnswer).map
          Failure.report) := by
  induction moments generalizing service with
  | nil =>
      exact ⟨(List.append_nil _).symm, .none (List.prefix_refl _) rfl rfl rfl⟩
  | cons moment moments ih =>
      have hfirst := hheld.live_notes hallotted moment
      obtain ⟨hhanded, hrest⟩ :=
        ih (hheld.live hallotted.armed moment) (hallotted.live moment)
      rw [ledger, List.filter_append, List.map_append, replies,
        ← List.append_assoc, ← Server.handed_eq_append_sent hfirst.handed]
      exact ⟨hhanded, hfirst.append hrest⟩

/-- In every run of a server, however its lines open and close: of the replies
that could not be sent, those that answer a question that the engine took are
counted, and reported one by one to whoever wants to know, in their order and
with what the line said. When an answer is reported, its request has given its
slot back: the slots in use are those of the requests that still wait. The
failures of replies that report errors are neither counted nor reported, so that
the count is right just when there were none of these. -/
theorem failures_of_answers_are_reported (settings : Settings)
    (ids : Nat → UInt16) (server : Server) (capacity : Nat)
    (moments : List (Moment κ γ)) :
    let start : Service κ γ :=
      { engine := .create settings ids,
        server := { server with pool := .create capacity } }
    let after := (moments.foldl Service.live start).server
    let ledger := start.ledger moments
    let answers := ledger.filter Failure.isAnswer
    after.handed = server.handed ++ start.replies moments ∧
      after.sendFailures = server.sendFailures + answers.length ∧
      after.reports =
        server.reports ++
        (if server.hooked then answers.map Failure.report else []) ∧
      (after.sendFailures = server.sendFailures + ledger.length ↔
        ∀ failure ∈ ledger, failure.isAnswer = true) := by
  intro start after ledger answers
  have hheld : start.Held := by simp [Held, start, Engine.parked, Engine.create]
  obtain ⟨hhanded, -, -, hcount, hreports⟩ :=
    hheld.run_notes (start_allotted settings ids server capacity) moments
  rw [List.length_map] at hcount
  refine ⟨hhanded, hcount, hreports, ?_⟩
  rw [hcount, Nat.add_left_cancel_iff]
  exact List.length_filter_eq_length_iff

def goneLine : List (Nat × String) :=
  [(0, "connection closed")]

/-- Nobody here answers questions of the type of this query, and the client is
gone before it is told so: that goes by without notice. -/
theorem lost_error_goes_unnoticed :
    let settings := Settings.withServer (.v4 ⟨192, 0, 2, 1⟩ 53)
    let server : Server := ⟨.create 4, true, 1232, [], true, 0, [], []⟩
    let start : Service Unit Unit :=
      { engine := .create settings (fun _ => 0), server }
    let moments : List (Moment Unit Unit) :=
      [⟨goneLine, .perform .start⟩, ⟨goneLine, .receive bindingQuery⟩]
    let after := (moments.foldl Service.live start).server
    start.ledger moments =
        [⟨false, .sendFailed "192.0.2.7:5353" "connection closed", 0⟩] ∧
      after.hooked = true ∧ after.sendFailures = 0 ∧ after.reported = [] := by
  decide +kernel

end Service

end DnsForwarder
