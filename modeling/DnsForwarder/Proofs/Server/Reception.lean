import DnsForwarder.Proofs.Engine.Contexts
import DnsForwarder.Proofs.Engine.Delivery
import DnsForwarder.Proofs.Server.Replies

/-! What bytes that a server receives come to: nothing, a closed request, or one
that waits in the engine. -/

namespace DnsForwarder

variable {κ γ : Type}

/-- Bytes that a reply is owed to: a request, or what cannot be decoded but has
an id. -/
def Inbound.isOwed (inbound : Inbound) : Bool :=
  match Message.decode? inbound.bytes with
  | some request => !request.header.isResponse
  | none => (Server.idOf? inbound.bytes).isSome

namespace Server

open Message

inductive Reception (box : QueryContext → γ) (engine : Engine (Party κ) γ)
    (server : Server) (inbound : Inbound) :
    Engine (Party κ) γ × Server × Except Error Unit → Prop
  | ignored (howed : inbound.isOwed = false) :
      Reception box engine server inbound (engine, server, .ok ())
  | closed {engine' : Engine (Party κ) γ} {server' : Server}
    {result : Except Error Unit}
      {fate : Fate} (howed : inbound.isOwed = true) (harmed : engine'.Armed)
      (hparked : engine'.parked.Perm engine.parked)
      (halike : server.Alike server')
      (hmeets : inbound.Meets server fate)
      (hcloses : server.Closes server' result fate) :
      Reception box engine server inbound (engine', server', result)
  | parked {engine' : Engine (Party κ) γ} {pool : ContextPool}
    {question : Question}
      {context : QueryContext} (howed : inbound.isOwed = true)
      (harmed : engine'.Armed)
      (hparked : engine'.parked.Perm
        (engine.parked ++ [⟨question, ⟨.server, box context⟩⟩]))
      (hasks : inbound.Asks server question context) :
      Reception box engine server inbound
        (engine', { server with pool }, .ok ())

variable {engine : Engine (Party κ) γ} {inbound : Inbound} {request : Message}

theorem sendError_reception (box : QueryContext → γ)
    {engine' : Engine (Party κ) γ} {server before : Server}
    (hdecode : decode? inbound.bytes = some request)
    (howed : inbound.isOwed = true) (harmed : engine'.Armed)
    (hparked : engine'.parked.Perm engine.parked)
    (halike : server.Alike before) (hhanded : before.handed = server.handed)
    (rcode : Rcode) :
    Reception box engine server inbound
      (engine', before.sendError inbound.responder request.header.id
        request.header.opcode
        request.questions.head? rcode) := by
  have hhead : ∀ inquiry ∈ request.questions.head?,
      inquiry.name.span + 1 ≤ Labels.maxLength := by
    intro inquiry hinquiry
    exact decode?_short hdecode inquiry (List.mem_of_head? hinquiry)
  obtain ⟨bytes, hbuild, hafter, hcloses⟩ :=
    before.sendError_closes inbound.responder
    request.header.id request.header.opcode rcode hhead
  exact .closed howed harmed hparked (halike.trans hafter)
    (.rejected hdecode hbuild) (hcloses.congr hhanded)

variable [DecidableEq κ]

theorem handle_reception (box : QueryContext → γ) (harmed : engine.Armed)
    (server : Server) (now : Nat)
    (hdecode : decode? inbound.bytes = some request)
    (hquery : request.header.isResponse = false) :
    Reception box engine server inbound
      (server.handle box engine now request inbound.responder) := by
  have howed : inbound.isOwed = true := by
    simp [Inbound.isOwed, hdecode, hquery]
  cases hquestion : question request with
  | error rcode =>
      simp only [handle, hquestion]
      exact sendError_reception box hdecode howed harmed (.refl _)
        ⟨rfl, rfl⟩ rfl rcode
  | ok asked =>
      obtain ⟨inquiry, question⟩ := asked
      let before : Server := { server with pool := server.pool.acquire.1 }
      let context :=
        before.fill server.pool.acquire.2 request inquiry inbound.responder
      let flags : Flags := { cacheOnly := !server.recursionAvailable }
      have halike : server.Alike before := ⟨rfl, rfl⟩
      -- Whatever is left in the slot, `fill` writes over all of it.
      have hasks : inbound.Asks server question context :=
        ⟨request, inquiry, hdecode, hquestion,
          fill_alike halike _ request inquiry _⟩
      have hmove := engine.resolve_move now question .server (box context) flags
      have hperm := hmove.parked_perm harmed.keyed
      have harmed' := harmed.move hmove
      simp only [handle, hquestion]
      cases hresolve : engine.resolve now question .server
        (box context) flags with
      | mk after resolution =>
          simp only [Engine.perform, hresolve, Engine.taken, List.map_nil,
            List.append_nil] at hperm harmed'
          cases resolution with
          | error error =>
              have hparked : after.parked.Perm engine.parked := by
                simpa [Engine.Event.admitted] using hperm.symm
              have hsole : some inquiry = request.questions.head? := by
                rw [question_eq_ok hquestion]
                rfl
              have hreleased : server.Alike (before.release context) :=
                ⟨rfl, rfl⟩
              simp only [hsole]
              exact sendError_reception box hdecode howed harmed' hparked
                hreleased rfl _
          | ok resolution =>
              cases resolution with
              | pending => exact .parked howed harmed' hperm.symm hasks
              | ready answer back =>
                  have hparked : after.parked.Perm engine.parked := by
                    simpa [Engine.Event.admitted] using hperm.symm
                  obtain rfl := Engine.resolve_question hresolve
                  obtain ⟨hafter, hcloses, hmeets⟩ := hasks.conclude halike
                  exact .closed howed harmed' hparked (halike.trans hafter)
                    hmeets hcloses

theorem buildError_malformed (id : UInt16) :
    buildError id query none Rcode.formErr = .ok (malformedReply id) := rfl

theorem dispatch_reception (box : QueryContext → γ) (harmed : engine.Armed)
    (server : Server) (now : Nat) (inbound : Inbound) :
    Reception box engine server inbound
      (server.dispatch box engine now inbound.bytes inbound.responder) := by
  unfold dispatch
  cases hdecode : decode? inbound.bytes with
  | some request =>
      cases hresponse : request.header.isResponse with
      | true =>
          simp only [hresponse, if_true]
          exact .ignored (by simp [Inbound.isOwed, hdecode, hresponse])
      | false =>
          simp only [hresponse, Bool.false_eq_true, if_false]
          exact handle_reception box harmed server now hdecode hresponse
  | none =>
      cases hid : idOf? inbound.bytes with
      | none => exact .ignored (by simp [Inbound.isOwed, hdecode, hid])
      | some id =>
          have howed : inbound.isOwed = true := by
            simp [Inbound.isOwed, hdecode, hid]
          have hnone : ∀ inquiry ∈ (none : Option Inquiry),
              inquiry.name.span + 1 ≤ Labels.maxLength := nofun
          obtain ⟨bytes, hbuild, halike, hcloses⟩ :=
            server.sendError_closes inbound.responder id query
              Rcode.formErr hnone
          rw [buildError_malformed] at hbuild
          cases hbuild
          exact .closed howed harmed (.refl _) halike
            (.malformed hdecode hid) hcloses

section Contexts

variable {δ : Type} (mark : γ → δ) (box : QueryContext → γ)
  (engine : Engine (Party κ) γ) (server : Server) (now : Nat)

omit [DecidableEq κ]

theorem handle_mapContext (request : Message) (responder : Responder) :
    server.handle (mark ∘ box) (engine.mapContext mark) now request responder =
      ((server.handle box engine now request responder).1.mapContext mark,
        (server.handle box engine now request responder).2) := by
  unfold handle
  cases question request with
  | error rcode => rfl
  | ok asked =>
      obtain ⟨inquiry, question⟩ := asked
      let before : Server := { server with pool := server.pool.acquire.1 }
      let context := before.fill server.pool.acquire.2 request inquiry responder
      let flags : Flags := { cacheOnly := !server.recursionAvailable }
      simp only [Function.comp_apply, Engine.resolve_mapContext]
      cases engine.resolve now question .server (box context) flags with
      | mk after resolution =>
          cases resolution with
          | error error => rfl
          | ok resolution => cases resolution <;> rfl

theorem dispatch_mapContext (inbound : Inbound) :
    server.dispatch (mark ∘ box) (engine.mapContext mark) now inbound.bytes
      inbound.responder =
      ((server.dispatch box engine now inbound.bytes
        inbound.responder).1.mapContext mark,
        (server.dispatch box engine now inbound.bytes
          inbound.responder).2) := by
  unfold dispatch
  cases decode? inbound.bytes with
  | some request =>
      simp only [handle_mapContext]
      split <;> rfl
  | none => cases idOf? inbound.bytes <;> rfl

end Contexts

end Server

end DnsForwarder
