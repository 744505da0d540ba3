import DnsForwarder.Proofs.Engine.Freshness
import DnsForwarder.Proofs.Server.Echo
import DnsForwarder.Proofs.Server.Relay

/-! How long the records of a reply may be kept. A reply from the cache has the
lifetimes that the records had when they came, whatever time has passed since:
they are not over then, but the client is not told that part of them is. -/

namespace DnsForwarder

open Message

variable {κ γ : Type}

namespace Record

theorem toWire_ttl {record : Record} {wire : WireRecord}
    (hwrite : record.toWire = .ok wire) :
    wire.ttl = record.ttl := by
  obtain ⟨owner, -, hwrite⟩ := bind_eq_ok.mp hwrite
  obtain ⟨data, -, hwrite⟩ := bind_eq_ok.mp hwrite
  cases hwrite
  rfl

theorem toWire_ttls {records : List Record} {wires : List WireRecord}
    (hwrite : records.mapM toWire = .ok wires) :
    wires.map RecordOver.ttl = records.map RecordOver.ttl := by
  have hall := mapM_eq_ok hwrite
  clear hwrite
  induction hall with
  | nil => rfl
  | cons hrecord _ ih =>
      rw [List.map_cons, List.map_cons, toWire_ttl hrecord, ih]

end Record

namespace Engine

theorem Completes.records_eq {engine : Engine κ γ} {event : Event κ γ}
    {answer : Answer} (hcompletes : engine.Completes event answer)
    (hcacheable : answer.status.isCacheable) :
    ∃ generation received upstream,
      event = .ended answer.question generation (.result (.ok received)) ∧
      decode? received = some upstream ∧
      answer.records =
        (upstream.answers.filterMap Entry.record?).map Record.ofWire := by
  obtain ⟨question, generation, ending, entry, rfl, hcurrent, hsequel⟩ :=
    hcompletes
  have hquestion : answer.question = question :=
    (InFlight.sequel_question hsequel).trans
      (entry?_question (entry?_of_current? hcurrent).1)
  obtain ⟨result, rfl, hjudge⟩ := InFlight.sequel_cacheable hsequel hcacheable
  obtain ⟨received, response, rfl, hparse, -, -, hverdict⟩ :=
    judge_settled hjudge
  obtain ⟨upstream, hdecode, -, rfl⟩ := Response.parse_eq_ok hparse
  obtain ⟨-, hanswer⟩ := Response.verdict_settled hverdict
  exact ⟨generation, received, upstream, by rw [hquestion], hdecode,
    by rw [hanswer]; rfl⟩

theorem resolve_cached {engine : Engine κ γ} {now : Nat} {question : Question}
    {answer : Answer} {flags : Flags} (hstarted : engine.started = true)
    (hbypass : flags.bypassCache = false)
    (hget : (engine.cache.get now question).2 = some answer) (caller : κ)
    (context : γ) :
    (engine.resolve now question caller context flags).2 =
      .ok (.ready answer context) := by
  obtain ⟨counters, hlookup, -⟩ := engine.lookup_eq now question
  rw [hget] at hlookup
  simp only [resolve, hstarted, hbypass, hlookup, Bool.not_true,
    Bool.false_eq_true, if_false]

end Engine

namespace Server

/-- What received bytes make the server ask the engine, and the slot that it
packs the request into. -/
def asked? (server : Server) (inbound : Inbound) :
    Option (Question × QueryContext) :=
  match decode? inbound.bytes with
  | none => none
  | some request =>
      if request.header.isResponse then none
      else
        match question request with
        | .error _ => none
        | .ok (inquiry, question) =>
            some (question,
              server.fill server.pool.acquire.2 request inquiry
              inbound.responder)

variable (box : QueryContext → γ) (engine : Engine (Party κ) γ)
  (server : Server) (now : Nat)

theorem handle_engine (request : Message) (responder : Responder) :
    (server.handle box engine now request responder).1 =
      match question request with
      | .error _ => engine
      | .ok (inquiry, question) =>
          let context :=
            server.fill server.pool.acquire.2 request inquiry responder
          (engine.resolve now question .server
              (box context) server.flags).1 := by
  unfold handle
  cases question request with
  | error rcode => rfl
  | ok asked =>
      obtain ⟨inquiry, question⟩ := asked
      simp only [flags, fill]
      split
      next hresolve => rw [hresolve]
      next hresolve => rw [hresolve]
      next hresolve => rw [hresolve]

theorem dispatch_engine (inbound : Inbound) :
    (server.dispatch box engine now inbound.bytes inbound.responder).1 =
      (server.asked? inbound).elim engine fun (question, context) =>
        (engine.resolve now question .server (box context) server.flags).1 := by
  unfold dispatch asked?
  cases decode? inbound.bytes with
  | none => cases idOf? inbound.bytes <;> rfl
  | some request =>
      simp only
      split
      next => rfl
      next =>
        rw [handle_engine]
        cases question request <;> rfl

end Server

namespace Service

def event? (service : Service κ γ) :
    Turn κ γ → Option (Engine.Event (Party κ) (Parcel γ))
  | .receive inbound =>
      (service.server.asked? inbound).map fun (question, context) =>
        .resolve question .server (.query context) service.server.flags
  | .perform event => some event.ofGuest
  | .hand => none

theorem ofGuest_clock (event : Engine.Event κ γ) (now : Nat) :
    event.ofGuest.clock now = event.clock now := by
  cases event <;> rfl

variable [DecidableEq κ]

theorem turn_engine (service : Service κ γ) (turn : Turn κ γ) :
    (service.turn turn).engine = (service.event? turn).elim service.engine
        (fun event => (service.engine.perform service.now event).engine) ∧
      (service.turn turn).now =
        (service.event? turn).elim service.now
          (Engine.Event.clock service.now) := by
  cases turn with
  | receive inbound =>
      simp only [Service.turn, Server.dispatch_engine, event?]
      cases service.server.asked? inbound <;> exact ⟨rfl, rfl⟩
  | perform event => exact ⟨rfl, (ofGuest_clock event service.now).symm⟩
  | hand =>
      simp only [Service.turn]
      split
      next => exact ⟨rfl, rfl⟩
      next => split <;> exact ⟨rfl, rfl⟩

def events (service : Service κ γ) : List (Turn κ γ) →
    List (Engine.Event (Party κ) (Parcel γ))
  | [] => []
  | turn :: turns =>
      (service.event? turn).toList ++ (service.turn turn).events turns

def history (settings : Settings) (ids : Nat → UInt16) (server : Server)
    (turns : List (Turn κ γ)) : List (Engine.Event (Party κ) (Parcel γ)) :=
  ({ engine := .create settings ids, server } : Service κ γ).events turns

theorem foldl_events {σ : Type}
    (note : σ → Engine.Step (Party κ) (Parcel γ) → σ) {service : Service κ γ}
    {watched : Engine.Watched (Party κ) (Parcel γ) σ}
    (hengine : watched.engine = service.engine)
    (hnow : watched.now = service.now) (turns : List (Turn κ γ)) :
    let after := (service.events turns).foldl (Engine.Watched.next note) watched
    after.engine = (turns.foldl turn service).engine ∧
      after.now = (turns.foldl turn service).now := by
  induction turns generalizing service watched with
  | nil => exact ⟨hengine, hnow⟩
  | cons next turns ih =>
      obtain ⟨hafter, hclock⟩ := service.turn_engine next
      simp only [events, List.foldl_append, List.foldl_cons]
      cases hevent : service.event? next with
      | none =>
          rw [hevent] at hafter hclock
          exact ih (hengine.trans hafter.symm) (hnow.trans hclock.symm)
      | some event =>
          rw [hevent] at hafter hclock
          refine ih (Eq.trans ?_ hafter.symm) (Eq.trans ?_ hclock.symm)
          · rw [← hengine, ← hnow]
            rfl
          · rw [← hnow]
            rfl

theorem run_engine {σ : Type}
    (note : σ → Engine.Step (Party κ) (Parcel γ) → σ) (notes : σ)
    (settings : Settings) (ids : Nat → UInt16) (server : Server)
    (turns : List (Turn κ γ)) :
    let watched :=
      Engine.Watched.run note notes settings ids
      (history settings ids server turns)
    watched.engine = (run settings ids server turns).engine ∧
      watched.now = (run settings ids server turns).now :=
  foldl_events note rfl rfl turns

theorem run_alike (settings : Settings) (ids : Nat → UInt16) (server : Server)
    (turns : List (Turn κ γ)) :
    server.Alike (run settings ids server turns).server :=
  (Journal.run_mirrors settings ids server turns).server ▸
    (Journal.run_accounted settings ids server turns).alike

theorem reply_of_cached {service : Service κ γ} {first : Server}
    {inbound : Inbound} {question : Question} {context : QueryContext}
    {answer : Answer} {reply : SentReply}
    (halike : first.Alike service.server)
    (hasks : inbound.Asks first question context)
    (hstarted : service.engine.started = true)
    (hget : (service.engine.cache.get service.now question).2 = some answer)
    (hreply : (service.turn (.receive inbound)).server.handed =
      service.server.handed ++ [reply]) :
    first.replyBytes context answer = .ok reply.bytes := by
  obtain ⟨request, inquiry, hdecode, hquestion, rfl⟩ := id hasks
  let before : Server :=
    { service.server with pool := service.server.pool.acquire.1 }
  have hbefore : first.Alike before :=
    ⟨halike.recursionAvailable, halike.maxUdpPayload⟩
  have hsame : before.Alike first :=
    ⟨hbefore.recursionAvailable.symm, hbefore.maxUdpPayload.symm⟩
  have hfilled :=
    Server.fill_alike hbefore service.server.pool.acquire.2 request inquiry
    inbound.responder
  obtain ⟨after, hresolve⟩ : ∃ after,
    service.engine.resolve service.now question .server
      (.query (before.fill service.server.pool.acquire.2 request inquiry
        inbound.responder))
      { cacheOnly := !before.recursionAvailable } =
      (after, .ok (.ready answer _)) :=
    ⟨_, Prod.ext rfl (Engine.resolve_cached hstarted rfl hget _ _)⟩
  cases hresponse : request.header.isResponse with
  | true =>
      -- Nothing is said to a response.
      simp [Service.turn, Server.dispatch, hdecode, hresponse] at hreply
  | false =>
      have hconclude : (service.turn (.receive inbound)).server =
          (before.conclude (first.fill {} request inquiry inbound.responder)
            answer).1 := by
        simp only [Service.turn, Server.dispatch, hdecode, hresponse,
          Bool.false_eq_true, if_false, Server.handle, hquestion]
        rw [hresolve, hfilled]
      rw [hconclude] at hreply
      rw [← Server.replyBytes_alike hbefore]
      exact Server.reply_of_handed (hasks.alike hsame) hreply

end Service

theorem left_iff {entries : List Entry} {records : List WireRecord}
    {age : Nat} (hsame : entries.map Entry.ttl = records.map RecordOver.ttl)
    (hlifetimes : ∀ entry ∈ entries, age < entry.ttl.toNat * 1000) :
    List.Forall₂ (fun entry record => entry.ttl.toNat ≤ record.ttl.toNat - age /
      1000) entries
        records ↔
      age < 1000 ∨ entries = [] := by
  have hpairs :
      List.Forall₂ (fun entry record => entry.ttl = record.ttl) entries
      records := by
    rwa [← List.forall₂_eq_eq_eq, List.forall₂_map_left_iff,
      List.forall₂_map_right_iff] at hsame
  constructor
  · intro hleft
    cases hleft with
    | nil => exact .inr rfl
    | @cons entry record _ _ hle _ =>
        have hlife := hlifetimes entry List.mem_cons_self
        cases hpairs with
        | cons hfirst _ =>
            rw [hfirst] at hle hlife
            omega
  · rintro (hyoung | rfl)
    · refine hpairs.imp fun entry record hpair => ?_
      rw [hpair, Nat.div_eq_of_lt hyoung]
      exact Nat.le_refl _
    · cases hpairs
      exact .nil

/-- When a server replies from its cache, the reply has the first records that
the response had which the answer came from, each with the lifetime that it had
there, however old the answer is. None of these lifetimes is over yet, and what
the client reads is no more than what is left of them just when the answer is
younger than a second or the reply has no records. -/
theorem Service.cached_records_keep_their_lifetimes [DecidableEq κ]
    (settings : Settings) (ids : Nat → UInt16) (server : Server)
    (turns : List (Turn κ γ)) (inbound : Inbound) (question : Question)
    (context : QueryContext) (answer : Answer) (reply : SentReply) :
    let service := Service.run settings ids server turns
    let watched := Engine.Watched.run Engine.notePeriod [] settings ids
      (Service.history settings ids server turns)
    inbound.Asks server question context →
    (service.engine.cache.get service.now question).2 = some answer →
    (service.turn (.receive inbound)).server.handed =
    service.server.handed ++ [reply] →
      watched.engine = service.engine ∧ watched.now = service.now ∧
      ∃ source generation received upstream message count,
        Engine.LastStored watched.notes source answer ∧
        source.now ≤ service.now ∧
        source.event = .ended question generation (.result (.ok received)) ∧
        decode? received = some upstream ∧ decode? reply.bytes = some message ∧
        let age := service.now - source.now
        let records := (upstream.answers.filterMap Entry.record?).take count
        message.answers.map Entry.ttl = records.map RecordOver.ttl ∧
        (∀ entry ∈ message.answers, age < entry.ttl.toNat * 1000) ∧
        (List.Forall₂ (fun entry record =>
          entry.ttl.toNat ≤ record.ttl.toNat - age / 1000)
            message.answers records ↔
          age < 1000 ∨ message.answers = []) := by
  intro service watched hasks hget hreply
  obtain ⟨hengine, hnow⟩ : watched.engine = service.engine ∧
    watched.now = service.now :=
    Service.run_engine Engine.notePeriod [] settings ids server turns
  refine ⟨hengine, hnow, ?_⟩
  have hdated :
      Engine.Dated settings watched.engine watched.now watched.notes :=
    Engine.run_dated settings ids (Service.history settings ids server turns)
  have hsourced : Engine.Sourced watched.engine watched.notes :=
    Engine.run_sourced settings ids (Service.history settings ids server turns)
  rw [hengine] at hdated hsourced
  rw [hnow] at hdated
  obtain ⟨rfl, source, hlast, hage, hfresh⟩ := hdated.fresh hget
  obtain ⟨earlier, later, hperiod, -⟩ := hlast.last
  obtain ⟨hcompletes, hcacheable, -⟩ :=
    (hdated.stores_iff (by simp [hperiod])).mp hlast.stores
  obtain ⟨generation, received, upstream, hevent, hdecode, hrecords⟩ :=
    hcompletes.records_eq hcacheable
  have hstarted : service.engine.started = true := by
    cases hstarted : service.engine.started with
    | true => rfl
    | false =>
        -- An engine at rest keeps nothing.
        obtain ⟨kept, hkept, -⟩ := AnswerCache.get_mem hget
        rw [hsourced.idle hstarted] at hkept
        cases hkept
  have hbytes :=
    Service.reply_of_cached (Service.run_alike settings ids server turns) hasks
    hstarted hget hreply
  obtain ⟨-, wires, count, hwires, ⟨-, message, hmessage, hanswers, -⟩, -⟩ :=
    Server.replyBytes_carries hasks hbytes
  have hsent : message.answers.map Entry.ttl =
      (answer.records.map RecordOver.ttl).take count := by
    rw [hanswers, ← Record.toWire_ttls hwires, List.map_map, ← List.map_take]
    rfl
  have hlifetimes : ∀ entry ∈ message.answers,
      service.now - source.now < entry.ttl.toNat * 1000 := by
    intro entry hentry
    have hmem : entry.ttl ∈ answer.records.map RecordOver.ttl :=
      List.mem_of_mem_take (hsent ▸ List.mem_map_of_mem hentry)
    obtain ⟨record, hrecord, hsame⟩ := List.mem_map.mp hmem
    rw [← hsame]
    exact hfresh.records record hrecord
  have hsame : message.answers.map Entry.ttl =
      ((upstream.answers.filterMap Entry.record?).take count).map
      RecordOver.ttl := by
    rw [hsent, hrecords, List.map_map, ← List.map_take]
    rfl
  exact ⟨source, generation, received, upstream, message, count, hlast, hage,
    hevent, hdecode, hmessage, hsame, hlifetimes, left_iff hsame hlifetimes⟩

section Aged

def agingServer : Server :=
  ⟨.create 4, true, 1232, [], true, 0, [], []⟩

/-- The address is asked for and kept for a minute, and five seconds pass. -/
def agingTurns : List (Turn Unit Unit) :=
  [ .perform .start
  , .receive exampleQuery
  , .perform (.ended Engine.addressQuestion 1
      (.result (.ok (Engine.addressResponse 60 1))))
  , .hand
  , .perform (.wait 5000) ]

def agingContext : QueryContext where
  id := 7
  opcode? := some query
  inquiry? := some
    ⟨[[0x65, 0x78, 0x61, 0x6d, 0x70, 0x6c, 0x65], [0x63, 0x6f, 0x6d]],
    1, internet⟩
  recursionDesired := true
  maxResponseSize := 65535
  responder? := some exampleQuery.responder

def minuteReply : SentReply where
  responder := exampleQuery.responder
  bytes :=
    [ 0, 7, 0x81, 0x80, 0, 1, 0, 1, 0, 0, 0, 0
    , 7, 0x65, 0x78, 0x61, 0x6d, 0x70, 0x6c, 0x65, 3, 0x63, 0x6f, 0x6d,
      0, 0, 1, 0, 1
    , 0xc0, 12, 0, 1, 0, 1, 0, 0, 0, 60, 0, 4, 192, 0, 2, 1 ]

theorem exampleQuery_asks :
    exampleQuery.Asks agingServer Engine.addressQuestion agingContext := by
  obtain ⟨request, hdecode, hquestion, hfill⟩ : ∃ request,
      decode? exampleQuery.bytes = some request ∧
      Server.question request = .ok
        (⟨[[0x65, 0x78, 0x61, 0x6d, 0x70, 0x6c, 0x65], [0x63, 0x6f, 0x6d]],
        1, internet⟩, Engine.addressQuestion) ∧
      agingServer.fill {} request
        ⟨[[0x65, 0x78, 0x61, 0x6d, 0x70, 0x6c, 0x65], [0x63, 0x6f, 0x6d]],
        1, internet⟩
        exampleQuery.responder = agingContext :=
    ⟨(decode? exampleQuery.bytes).get (by decide +kernel), by simp,
      by decide +kernel, by decide +kernel⟩
  exact ⟨request, _, hdecode, hquestion, hfill.symm⟩

theorem Service.address_keeps_its_minute :
    let settings := Settings.withServer (.v4 ⟨192, 0, 2, 1⟩ 53)
    let service := Service.run settings (fun _ => 0) agingServer agingTurns
    let watched := Engine.Watched.run Engine.notePeriod [] settings (fun _ => 0)
      (Service.history settings (fun _ => 0) agingServer agingTurns)
    exampleQuery.Asks agingServer Engine.addressQuestion agingContext ∧
    (service.engine.cache.get service.now Engine.addressQuestion).2 =
      some (Engine.addressAnswer 60 1) ∧
    (service.turn (.receive exampleQuery)).server.handed =
      service.server.handed ++ [minuteReply] ∧
    watched.engine = service.engine ∧ watched.now = service.now ∧
    ∃ source generation received upstream message count,
      Engine.LastStored watched.notes source (Engine.addressAnswer 60 1) ∧
      source.now ≤ service.now ∧
      source.event = .ended Engine.addressQuestion generation
      (.result (.ok received)) ∧
      decode? received = some upstream ∧ decode? minuteReply.bytes =
      some message ∧
      let age := service.now - source.now
      let records := (upstream.answers.filterMap Entry.record?).take count
      message.answers.map Entry.ttl = records.map RecordOver.ttl ∧
      (∀ entry ∈ message.answers, age < entry.ttl.toNat * 1000) ∧
      (List.Forall₂ (fun entry record =>
        entry.ttl.toNat ≤ record.ttl.toNat - age / 1000)
          message.answers records ↔
        age < 1000 ∨ message.answers = []) := by
  intro settings service watched
  refine ⟨exampleQuery_asks, by decide +kernel, by decide +kernel, ?_⟩
  exact cached_records_keep_their_lifetimes settings
    (fun _ => 0) agingServer agingTurns
    exampleQuery Engine.addressQuestion agingContext
    (Engine.addressAnswer 60 1) minuteReply
    exampleQuery_asks (by decide +kernel) (by decide +kernel)

/-- The answer is kept at once, and five seconds later the reply still grants a
minute. -/
theorem Service.aged_address_gets_a_whole_minute :
    let settings := Settings.withServer (.v4 ⟨192, 0, 2, 1⟩ 53)
    let stored :=
      Service.run settings (fun _ => 0) agingServer (agingTurns.take 3)
    let service := Service.run settings (fun _ => 0) agingServer agingTurns
    stored.now = 0 ∧ stored.engine.cache.size = 1 ∧ service.now = 5000 ∧
      (service.turn (.receive exampleQuery)).engine.counters.cacheHits = 1 ∧
      (service.turn (.receive exampleQuery)).server.handed.map
          (fun reply => (decode? reply.bytes).map fun message =>
            message.answers.map Entry.ttl) =
        [some [60], some [60]] ∧
      ¬60 ≤ 60 - (service.now - stored.now) / 1000 := by
  decide +kernel

end Aged

end DnsForwarder
