import DnsForwarder.Proofs.Server.Size

/-! What a reply repeats of its request. Every reply has the id, the opcode and
the question of its request, and nothing beside answers. The bits about
recursion are what they should be in replies to questions that the engine takes;
replies to all other requests report errors and leave both clear. -/

namespace DnsForwarder

open Message

variable {κ γ : Type}

namespace Message

/-- A reply has what its request is known by, and nothing but answers beside
it. -/
structure Repeats (reply request : Message) : Prop where
  isResponse : reply.header.isResponse = true
  id : reply.header.id = request.header.id
  opcode : reply.header.opcode = request.header.opcode
  questions : reply.questions = request.questions.head?.toList
  authority : reply.authority = []
  additional : reply.additional = []
  extension? : reply.extension? = none

variable {bytes source : Octets} {request : Message}

theorem decode?_opcode (hdecode : decode? source = some request) :
    UInt8.ofNat (request.header.opcode.toNat % 16) = request.header.opcode := by
  obtain ⟨cursor, -, -, -, hheader, -⟩ := decode?_cases hdecode
  match source, hheader with
  | _ :: _ :: high :: _ :: _, hheader =>
      have hopcode :
          request.header.opcode = UInt8.ofNat (high.toNat / 8 % 16) :=
        (congrArg (fun read => read.1.opcode) (Option.some.inj hheader)).symm
      have hsmall : high.toNat / 8 % 16 < 16 :=
        Nat.mod_lt _ (Nat.zero_lt_succ 15)
      have hbyte : (UInt8.ofNat (high.toNat / 8 % 16)).toNat =
          high.toNat / 8 % 16 := by
        rw [UInt8.toNat_ofNat']
        omega
      rw [hopcode, hbyte, Nat.mod_eq_of_lt hsmall]

/-- Whatever is written behind the question of a request, under its id and
opcode, is read as a reply to it with the bits about recursion as they were
written. -/
theorem repeats_of_encode {header : Header} {answers : List WireRecord}
    (hdecode : decode? source = some request)
    (hencode : encode header request.questions.head?.toList answers = .ok bytes)
    (hanswers : ∀ answer ∈ answers, answer.Named)
    (hresponse : header.isResponse = true)
    (hid : header.id = request.header.id)
    (hopcode : header.opcode = request.header.opcode) :
    ∃ reply, decode? bytes = some reply ∧ reply.Repeats request ∧
      reply.header.recursionDesired = header.recursionDesired ∧
      reply.header.recursionAvailable = header.recursionAvailable := by
  have hvalid : ∀ inquiry ∈ request.questions.head?.toList,
      inquiry.name.isValid := by
    intro inquiry hinquiry
    exact decode?_isValid hdecode inquiry
      (List.mem_of_head? (Option.mem_toList.mp hinquiry))
  obtain ⟨count, -, hreply⟩ := decode?_encode_carried hvalid hanswers hencode
  refine ⟨_, hreply, ?_, rfl, rfl⟩
  exact {
    isResponse := hresponse
    id := hid
    opcode := by
      simp only [Header.arrived, hopcode, decode?_opcode hdecode]
    questions := rfl
    authority := rfl
    additional := rfl
    extension? := rfl }

theorem buildError_repeats {rcode : Rcode}
    (hdecode : decode? source = some request)
    (hbuild : buildError request.header.id request.header.opcode
      request.questions.head? rcode = .ok bytes) :
    ∃ reply, decode? bytes = some reply ∧ reply.Repeats request ∧
      reply.header.recursionDesired = false ∧
      reply.header.recursionAvailable = false := by
  have hencode :
      encode (errorHeader request.header.id request.header.opcode rcode)
      request.questions.head?.toList [] = .ok bytes := encoded_eq_ok hbuild
  exact repeats_of_encode hdecode hencode (by simp) rfl rfl rfl

end Message

namespace Server

variable {server : Server} {inbound : Inbound} {question : Question}
  {context : QueryContext} {answer : Answer} {bytes : Octets}
  {request : Message}

theorem replyBytes_repeats (hdecode : decode? inbound.bytes = some request)
    (hasks : inbound.Asks server question context)
    (hreply : server.replyBytes context answer = .ok bytes) :
    ∃ reply, decode? bytes = some reply ∧ reply.Repeats request ∧
      reply.header.recursionDesired = request.header.recursionDesired ∧
      reply.header.recursionAvailable = server.recursionAvailable := by
  obtain ⟨asked, inquiry, hasked, hquestion, rfl⟩ := hasks
  obtain rfl : request = asked := Option.some.inj (hdecode.symm.trans hasked)
  have hsole : request.questions.head? = some inquiry := by
    rw [question_eq_ok hquestion]
    rfl
  -- Cut or not, the reply is built under the same header, but for the mark.
  have hbuilt {truncated : Bool} {records : List Record}
      (hbuild : buildResponse
        (server.replyHeader
          (server.fill {} request inquiry inbound.responder) truncated)
        (some inquiry) (rcodeOf answer.status) records = .ok bytes) :
      ∃ reply, decode? bytes = some reply ∧ reply.Repeats request ∧
        reply.header.recursionDesired = request.header.recursionDesired ∧
        reply.header.recursionAvailable = server.recursionAvailable := by
    obtain ⟨wires, hwires, hencode⟩ := buildResponse_eq_ok hbuild
    rw [← hsole] at hencode
    exact repeats_of_encode hdecode hencode
      (Record.toWire_all_named hwires) rfl rfl rfl
  rcases server.replyBytes_cases
    (server.fill {} request inquiry inbound.responder) answer with
    ⟨error, -, herror⟩ | ⟨whole, hwhole, hsame | hsame⟩
  · rw [herror] at hreply
    cases hreply
  · rw [hsame] at hreply
    cases hreply
    exact hbuilt hwhole
  · rw [hsame] at hreply
    exact hbuilt hreply

/-- How a server asks its engine: without recursion, only what is kept
counts. -/
def flags (server : Server) : Flags :=
  { cacheOnly := !server.recursionAvailable }

def takes (server : Server) (engine : Engine (Party κ) γ) (now : Nat)
    (context : γ) (request : Message) : Bool :=
  match Server.question request with
  | .error _ => false
  | .ok (_, question) =>
      (engine.resolve now question .server context server.flags).2.isOk

inductive Handling (server : Server) (request : Message)
    (responder : Responder) (taken : Bool) :
    Engine (Party κ) γ × Server × Except Error Unit → Prop
  | refused {engine : Engine (Party κ) γ} {pool : ContextPool} {rcode : Rcode}
      (htaken : taken = false) :
      Handling server request responder taken
        (engine, sendError { server with pool } responder request.header.id
          request.header.opcode request.questions.head? rcode)
  | parked {engine : Engine (Party κ) γ} {pool : ContextPool}
    (htaken : taken = true) :
      Handling server request responder taken
        (engine, { server with pool }, .ok ())
  | answered {engine : Engine (Party κ) γ} {pool : ContextPool}
    {inquiry : Inquiry} {answer : Answer} (htaken : taken = true)
      (hquestion : Server.question request = .ok (inquiry, answer.question)) :
      Handling server request responder taken
        (engine, conclude { server with pool }
          (server.fill {} request inquiry responder) answer)

end Server

namespace Engine

variable (engine : Engine κ γ) (now : Nat) (question : Question) (caller : κ)
  (flags : Flags)

theorem resolve_isOk_mapContext {δ : Type} (mark : γ → δ) (context : γ) :
    ((engine.mapContext mark).resolve now question caller
      (mark context) flags).2.isOk =
      (engine.resolve now question caller context flags).2.isOk := by
  rw [resolve_mapContext]
  cases (engine.resolve now question caller context flags).2 <;> rfl

theorem resolve_isOk (context other : γ) :
    (engine.resolve now question caller context flags).2.isOk =
      (engine.resolve now question caller other flags).2.isOk := by
  rw [← resolve_isOk_mapContext engine now question caller flags
      (fun _ => ()) context,
    ← resolve_isOk_mapContext engine now question caller flags
    (fun _ => ()) other]

end Engine

namespace Server

variable (box : QueryContext → γ) (engine : Engine (Party κ) γ)
  (server : Server) (now : Nat)

theorem takes_mapContext {δ : Type} (mark : γ → δ) (context : γ)
    (request : Message) :
    server.takes (engine.mapContext mark) now (mark context) request =
      server.takes engine now context request := by
  unfold takes
  split
  next => rfl
  next => exact engine.resolve_isOk_mapContext now _ _ _ mark context

theorem handle_handling (context : γ) (request : Message)
    (responder : Responder) :
    Handling server request responder (server.takes engine now context request)
      (server.handle box engine now request responder) := by
  rw [takes]
  cases hquestion : question request with
  | error rcode =>
      simp only [handle, hquestion]
      exact .refused rfl
  | ok asked =>
      obtain ⟨inquiry, question⟩ := asked
      let before : Server := { server with pool := server.pool.acquire.1 }
      let filled := before.fill server.pool.acquire.2 request inquiry responder
      have halike : server.Alike before := ⟨rfl, rfl⟩
      have hfilled : filled = server.fill {} request inquiry responder :=
        fill_alike halike _ request inquiry responder
      have hsole : some inquiry = request.questions.head? := by
        rw [question_eq_ok hquestion]
        rfl
      have hflags :
          server.flags = { cacheOnly := !before.recursionAvailable } := rfl
      have htakes :=
        engine.resolve_isOk now question .server server.flags context
          (box filled)
      rw [hflags] at htakes
      simp only [handle, hquestion, hflags, htakes]
      cases hresolve : engine.resolve now question .server (box filled)
          { cacheOnly := !before.recursionAvailable } with
      | mk after resolution =>
          cases resolution with
          | error error =>
              simp only [hsole]
              exact .refused rfl
          | ok resolution =>
              cases resolution with
              | pending => exact .parked rfl
              | ready answer back =>
                  obtain rfl := Engine.resolve_question hresolve
                  exact hfilled ▸ .answered rfl hquestion

theorem closing_eq_replied {server : Server} {responder : Responder}
    {context : QueryContext} {answer : Answer} {reply : SentReply}
    (hclosing : server.closing responder context answer = .replied reply) :
    reply.responder = responder ∧ server.replyBytes context answer =
      .ok reply.bytes := by
  rw [closing] at hclosing
  split at hclosing
  next bytes hbytes =>
    cases hclosing
    exact ⟨rfl, hbytes⟩
  next => cases hclosing

end Server

def Service.takes (service : Service κ γ) (request : Message) : Bool :=
  service.server.takes service.engine service.now (.query {}) request

theorem Turn.receive_of_inbound {turns : List (Turn κ γ)} {number : Nat}
    {inbound : Inbound}
    (hinbound : (turns.filterMap Turn.inbound?)[number]? = some inbound) :
    ∃ before after, turns = before ++ .receive inbound :: after ∧
      (before.filterMap Turn.inbound?).length = number := by
  obtain ⟨hlt, hget⟩ := List.getElem?_eq_some_iff.mp hinbound
  have hsplit := List.take_append_drop number (turns.filterMap Turn.inbound?)
  rw [List.drop_eq_getElem_cons hlt, hget] at hsplit
  obtain ⟨earlier, rest, rfl, hearlier, hrest⟩ :=
    List.filterMap_eq_append_iff.mp hsplit.symm
  obtain ⟨between, turn, after, rfl, hbetween, hturn, -⟩ :=
    List.filterMap_eq_cons_iff.mp hrest
  have hreceive : turn = .receive inbound := by
    cases turn <;> cases hturn
    rfl
  refine ⟨earlier ++ between, after, by simp [hreceive], ?_⟩
  rw [List.filterMap_append, hearlier, List.filterMap_eq_nil_iff.mpr hbetween,
    List.append_nil, List.length_take]
  exact Nat.min_eq_left (Nat.le_of_lt hlt)

namespace Journal

variable {first : Server} {journal : Journal κ γ} {number : Nat}
  {inbound : Inbound}

/-- A number is closed, if at all, by an answer to the question of its bytes. -/
def Pursues (first : Server) (journal : Journal κ γ) (number : Nat)
    (inbound : Inbound) : Prop :=
  ∀ fate, (number, fate) ∈ journal.closed → ∃ answer context,
    inbound.Asks first answer.question context ∧
      fate = first.closing inbound.responder context answer

theorem Accounted.lt_of_closed (haccounted : journal.Accounted first)
    {fate : Fate} (hclosed : (number, fate) ∈ journal.closed) :
    number < journal.inbound.length := by
  obtain ⟨inbound, hinbound, -⟩ :=
    haccounted.meets _ (mem_fates.mpr (.inr (.inr hclosed)))
  exact (List.getElem?_eq_some_iff.mp hinbound).1

theorem Accounted.closed_unique (haccounted : journal.Accounted first)
    {fate other : Fate} (hfate : (number, fate) ∈ journal.closed)
    (hother : (number, other) ∈ journal.closed) :
    fate = other := by
  have hsole := haccounted.fatesOf_of_mem (mem_fates.mpr (.inr (.inr hfate)))
  rw [haccounted.fatesOf_of_mem (mem_fates.mpr (.inr (.inr hother)))] at hsole
  exact (List.singleton_inj.mp hsole).symm

variable [DecidableEq κ]

omit [DecidableEq κ] in
theorem closed_take (journal : Journal κ γ) (inbound : Inbound)
    (outcome : Engine (Party κ) (Nat × Parcel γ) × Server × Except Error Unit) :
    (journal.take inbound outcome).closed = journal.closed ++
      (journal.server.closings outcome.2.1 outcome.2.2).map
        (journal.inbound.length, ·) := rfl

theorem Accounted.turn_closed (haccounted : journal.Accounted first)
    (turn : Turn κ γ) :
    ∃ new, (journal.turn turn).closed = journal.closed ++ new ∧
      ∀ entry ∈ new, entry.1 = journal.inbound.length ∨
      ∃ inbound answer context,
        journal.inbound[entry.1]? = some inbound ∧
          inbound.Asks first answer.question context ∧
          entry.2 = first.closing inbound.responder context answer := by
  cases turn with
  | receive inbound =>
      refine ⟨_, closed_take journal inbound _, fun entry hentry => .inl ?_⟩
      obtain ⟨fate, -, rfl⟩ := List.mem_map.mp hentry
      rfl
  | perform event =>
      have hsame : (journal.turn (.perform event)).closed = journal.closed :=
        rfl
      exact ⟨[], by rw [hsame, List.append_nil], by simp⟩
  | hand =>
      cases hinHand : journal.inHand with
      | nil =>
          refine ⟨[], ?_, by simp⟩
          simp only [Journal.turn, Journal.hand, hinHand, List.append_nil]
      | cons delivery inHand =>
          cases hnumbered : delivery.waiter.numbered? with
          | none =>
              refine ⟨[], ?_, by simp⟩
              simp only [Journal.turn, Journal.hand, hinHand, hnumbered,
                List.append_nil]
          | some numbered =>
              obtain ⟨number, context⟩ := numbered
              have hfate :
                  delivery.fate? =
                  some (number, .due delivery.answer context) :=
                Delivery.fate?_eq_some.mpr ⟨number, context, hnumbered, rfl⟩
              have hmem : delivery ∈ journal.inHand :=
                hinHand ▸ List.mem_cons_self
              obtain ⟨inbound, hinbound, hmeets⟩ :=
                haccounted.meets _
                  (mem_fates.mpr (.inr (.inl ⟨delivery, hmem, hfate⟩)))
              obtain ⟨found, server, result, hfound, -, -, -, hhand⟩ :=
                haccounted.hand_eq hinHand hfate
              obtain rfl : found = inbound :=
                Option.some.inj (hfound.symm.trans hinbound)
              cases hmeets with
              | due hasks =>
                  refine ⟨[_], by rw [Journal.turn, hhand], fun entry hentry =>
                    .inr ?_⟩
                  obtain rfl := List.mem_singleton.mp hentry
                  exact ⟨found, delivery.answer, context, hfound, hasks, rfl⟩

theorem Accounted.turn_pursues (haccounted : journal.Accounted first)
    (hinbound : journal.inbound[number]? = some inbound)
    (hpursues : journal.Pursues first number inbound) (turn : Turn κ γ) :
    (journal.turn turn).Pursues first number inbound := by
  obtain ⟨new, hclosed, hnew⟩ := haccounted.turn_closed turn
  intro fate hfate
  rw [hclosed] at hfate
  rcases List.mem_append.mp hfate with hold | hfate
  · exact hpursues fate hold
  · rcases hnew _ hfate with
      hlast | ⟨found, answer, context, hfound, hasks, hclosing⟩
    · obtain ⟨hlt, -⟩ := List.getElem?_eq_some_iff.mp hinbound
      exact absurd hlast (Nat.ne_of_lt hlt)
    · obtain rfl : found = inbound :=
        Option.some.inj (hfound.symm.trans hinbound)
      exact ⟨answer, context, hasks, hclosing⟩

theorem Accounted.receive (haccounted : journal.Accounted first)
    {request : Message} (hdecode : decode? inbound.bytes = some request)
    (hquery : request.header.isResponse = false) (context : Nat × Parcel γ) :
    let after := journal.turn (.receive inbound)
    let taken := journal.server.takes journal.engine journal.now context request
    (taken = true → after.Pursues first journal.inbound.length inbound) ∧
      (taken = false → ∃ rcode bytes,
        buildError request.header.id request.header.opcode
        request.questions.head? rcode = .ok bytes ∧
        (journal.inbound.length, .replied ⟨inbound.responder, bytes⟩) ∈
        after.closed) := by
  intro after taken
  have hhandling :=
    Server.handle_handling journal.box journal.engine journal.server journal.now
    context request inbound.responder
  have hdispatch :
      journal.server.dispatch journal.box journal.engine journal.now
      inbound.bytes inbound.responder =
        journal.server.handle journal.box journal.engine journal.now request
        inbound.responder := by
    simp only [Server.dispatch, hdecode, hquery, Bool.false_eq_true, if_false]
  have hafter : after = journal.take inbound
      (journal.server.handle journal.box journal.engine journal.now request
        inbound.responder) := by
    rw [← hdispatch]
    rfl
  have hfresh (fate : Fate) : (journal.inbound.length, fate) ∉ journal.closed :=
    fun hclosed => Nat.lt_irrefl _ (haccounted.lt_of_closed hclosed)
  rw [hafter]
  generalize journal.server.handle journal.box journal.engine
    journal.now request inbound.responder = outcome at hhandling
  cases hhandling with
  | @refused engine pool rcode htaken =>
      refine ⟨fun htaken' => absurd (htaken'.symm.trans htaken) (by decide),
        fun _ => ?_⟩
      have hspan : ∀ inquiry ∈ request.questions.head?,
          inquiry.name.span + 1 ≤ Labels.maxLength := by
        intro inquiry hinquiry
        exact decode?_short hdecode inquiry (List.mem_of_head? hinquiry)
      obtain ⟨bytes, hbuild, -, hcloses⟩ :=
        Server.sendError_closes { journal.server with pool }
        inbound.responder request.header.id request.header.opcode rcode hspan
      refine ⟨rcode, bytes, hbuild, ?_⟩
      have hclose := close_eq
        { journal with engine, inbound := journal.inbound ++ [inbound] }
        journal.inbound.length
        (hcloses.congr rfl)
      rw [Journal.take, hclose]
      exact List.mem_append_right _ (List.mem_singleton_self _)
  | parked htaken =>
      refine ⟨?_, fun hrefused =>
        absurd (hrefused.symm.trans htaken) (by decide)⟩
      intro _ fate hfate
      rw [take_of_open (by rfl)] at hfate
      exact absurd hfate (hfresh fate)
  | @answered engine pool inquiry answer htaken hquestion =>
      refine ⟨?_, fun hrefused =>
        absurd (hrefused.symm.trans htaken) (by decide)⟩
      intro _ fate hfate
      have hasks : inbound.Asks first answer.question
          (journal.server.fill {} request inquiry inbound.responder) :=
        ⟨request, inquiry, hdecode, hquestion,
          Server.fill_alike haccounted.alike _ request inquiry _⟩
      have halike : journal.server.Alike { journal.server with pool } :=
        ⟨rfl, rfl⟩
      obtain ⟨-, hcloses, -⟩ := hasks.conclude (haccounted.alike.trans halike)
      have hclose := close_eq
        { journal with engine, inbound := journal.inbound ++ [inbound] }
        journal.inbound.length
        (hcloses.congr rfl)
      rw [Journal.take, hclose] at hfate
      rcases List.mem_append.mp hfate with hold | hnew
      · exact absurd hold (hfresh fate)
      · cases List.mem_singleton.mp hnew
        exact ⟨answer, _, hasks, rfl⟩

theorem Accounted.foldl_turn (haccounted : journal.Accounted first)
    (hinbound : journal.inbound[number]? = some inbound)
    (turns : List (Turn κ γ)) :
    (journal.Pursues first number inbound →
      (turns.foldl Journal.turn journal).Pursues first number inbound) ∧
    ∀ entry ∈ journal.closed,
      entry ∈ (turns.foldl Journal.turn journal).closed := by
  induction turns generalizing journal with
  | nil => exact ⟨id, fun _ => id⟩
  | cons next turns ih =>
      have hkept : (journal.turn next).inbound[number]? = some inbound := by
        obtain ⟨hlt, -⟩ := List.getElem?_eq_some_iff.mp hinbound
        rw [turn_inbound, List.getElem?_append_left hlt, hinbound]
      obtain ⟨hpursues, hstays⟩ := ih (haccounted.turn next) hkept
      refine ⟨fun hbefore =>
        hpursues (haccounted.turn_pursues hinbound hbefore next), ?_⟩
      intro entry hentry
      obtain ⟨new, hclosed, -⟩ := haccounted.turn_closed next
      exact hstays entry (hclosed ▸ List.mem_append_left _ hentry)

omit [DecidableEq κ] in
theorem Mirrors.takes {service : Service κ γ}
    (hmirrors : journal.Mirrors service) (request : Message) :
    journal.server.takes journal.engine journal.now
      (number, .query {}) request =
      service.takes request := by
  rw [Service.takes, ← hmirrors.engine, ← hmirrors.server, ← hmirrors.now]
  exact (Server.takes_mapContext journal.engine journal.server
      journal.now Prod.snd (number, .query {}) request).symm

end Journal

/-- In every run of a server, a reply answers bytes that were received, and if
these are a request, it is read as a message with the id and the opcode of the
request and with its first question as it was, without authority, additional
records or an extension. It says whether recursion was asked for and whether it
is offered just when the request was taken when it came; if it was not, the
reply denies both. -/
theorem Service.replies_repeat_their_requests [DecidableEq κ]
    (settings : Settings) (ids : Nat → UInt16) (server : Server)
    (turns : List (Turn κ γ)) :
    let service := Service.run settings ids server turns
    let journal := Journal.run settings ids server turns
    service.server.handed =
      server.handed ++ journal.closed.filterMap (fun closed =>
        closed.2.reply?) ∧
    ∀ number reply, (number, Fate.replied reply) ∈ journal.closed →
      ∃ before inbound after, turns = before ++ .receive inbound :: after ∧
        (before.filterMap Turn.inbound?).length = number ∧
        reply.responder = inbound.responder ∧
        ∀ request, decode? inbound.bytes = some request →
        request.header.isResponse = false →
          let taken := (Service.run settings ids server before).takes request
          ∃ message, decode? reply.bytes = some message ∧
          message.Repeats request ∧
            message.header.recursionDesired =
            (taken && request.header.recursionDesired) ∧
            message.header.recursionAvailable =
            (taken && server.recursionAvailable) := by
  intro service journal
  have haccounted := Journal.run_accounted settings ids server turns
  have hmirrors := Journal.run_mirrors settings ids server turns
  refine ⟨hmirrors.server ▸ haccounted.faithful.handed, ?_⟩
  intro number reply hclosed
  obtain ⟨inbound, hinbound, hmeets⟩ :=
    haccounted.meets _ (Journal.mem_fates.mpr (.inr (.inr hclosed)))
  rw [Journal.run_inbound] at hinbound
  obtain ⟨before, after, rfl, hnumber⟩ := Turn.receive_of_inbound hinbound
  refine ⟨before, inbound, after, rfl, hnumber, hmeets.reply.1, ?_⟩
  intro request hdecode hquery taken
  let early : Journal κ γ := Journal.run settings ids server before
  have hearly : early.Accounted server :=
    Journal.run_accounted settings ids server before
  have hlength : early.inbound.length = number := by
    rw [Journal.run_inbound, hnumber]
  have htakes :
      early.server.takes early.engine early.now (0, .query {}) request =
      taken :=
    (Journal.run_mirrors settings ids server before).takes request
  have hreceived : (early.turn (.receive inbound)).inbound[number]? =
      some inbound := by
    rw [Journal.turn_inbound, ← hlength]
    exact List.getElem?_concat_length
  have hjournal :
      journal = after.foldl Journal.turn (early.turn (.receive inbound)) := by
    simp only [journal, Journal.run, List.foldl_append, List.foldl_cons]
    rfl
  -- What the request comes to at first decides which reply it gets, however
  -- long that takes.
  obtain ⟨hpursues, hstays⟩ :=
    (hearly.turn (.receive inbound)).foldl_turn hreceived after
  obtain ⟨htaken, hrefused⟩ := hearly.receive hdecode hquery (0, .query {})
  rw [htakes, hlength] at htaken hrefused
  rw [← hjournal] at hpursues hstays
  clear_value taken
  cases taken with
  | true =>
      obtain ⟨answer, context, hasks, hclosing⟩ :=
        hpursues (htaken rfl) _ hclosed
      obtain ⟨-, hbytes⟩ := Server.closing_eq_replied hclosing.symm
      exact Server.replyBytes_repeats hdecode hasks hbytes
  | false =>
      obtain ⟨rcode, bytes, hbuild, hmem⟩ := hrefused rfl
      cases haccounted.closed_unique hclosed (hstays _ hmem)
      exact buildError_repeats hdecode hbuild

/-- A query for the service binding of `example.com`, which asks for
recursion. -/
def bindingQuery : Inbound where
  bytes :=
    [ 0, 7, 1, 0, 0, 1, 0, 0, 0, 0, 0, 0
    , 7, 0x65, 0x78, 0x61, 0x6d, 0x70, 0x6c, 0x65, 3, 0x63, 0x6f, 0x6d, 0,
      0, 65, 0, 1 ]
  responder := ⟨.v4 ⟨192, 0, 2, 7⟩ 5353, .tcp, 0⟩

/-- Nobody here answers questions of its type, and the reply to it says neither
that recursion was asked for nor that the server offers it. -/
theorem Service.error_denies_recursion :
    let settings := Settings.withServer (.v4 ⟨192, 0, 2, 1⟩ 53)
    let server : Server := ⟨.create 4, true, 1232, [], true, 0, [], []⟩
    let turns : List (Turn Unit Unit) :=
      [.perform .start, .receive bindingQuery]
    let service := Service.run settings (fun _ => 0) server turns
    server.recursionAvailable = true ∧
      (decode? bindingQuery.bytes).map
          (fun request =>
            (request.header.isResponse, request.header.recursionDesired)) =
        some (false, true) ∧
      service.server.handed.map
      (fun reply => (decode? reply.bytes).map fun message =>
          (message.header.recursionDesired,
            message.header.recursionAvailable)) =
        [some (false, false)] := by
  decide +kernel

end DnsForwarder
