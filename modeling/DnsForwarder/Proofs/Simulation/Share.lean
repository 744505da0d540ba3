import DnsForwarder.Proofs.Engine.Run
import DnsForwarder.Proofs.Simulation.Calls
import DnsForwarder.Proofs.Simulation.Upstream
import Mathlib.Logic.Relation

/-! The share that one question has of a simulated world: its entry, its answer
in the cache, how often its servers were asked, and its log. A share goes its
way by itself; whatever else there is in the world has no part in it. -/

namespace DnsForwarder.Simulation

variable {κ γ : Type}

/-- When an attempt ends, and what it comes to. -/
structure Fate where
  due : Nat
  verdict : Verdict

/-- An answer under way. An attempt has a fate once its query has gone out. -/
structure Ask (κ γ : Type) where
  protocol : Protocol
  retriesDone : Nat
  launched : Nat
  waiters : List (Waiter κ γ)
  fate? : Option Fate := none

structure Share (κ γ : Type) where
  started : Bool
  /-- Only the entry of the question counts. -/
  cache : AnswerCache
  asked : Nat
  ask? : Option (Ask κ γ)
  log : Log κ γ

/-- A question with what never changes for it: its servers reply by how often
they were asked it before. -/
structure Scene where
  settings : Settings
  question : Question
  reply : Nat → Reply
  echoes : ∀ count, (reply count).Echoes question

namespace Ask

def entry (ask : Ask κ γ) (question : Question) : InFlight κ γ where
  question := question
  query := []
  messageId := 0
  server := 0
  protocol := ask.protocol
  retriesDone := ask.retriesDone
  generation := 0
  waiters := ask.waiters

end Ask

namespace Scene

variable (scene : Scene)

def query : Octets :=
  (Message.buildQuery scene.question 0).toOption.getD []

/-- The fate of an attempt whose query gets a reply: the reply comes in time, or
the alarm rings. -/
def fate (ask : Ask κ γ) (reply : Reply) : Fate :=
  match reply.result? scene.query with
  | some result =>
      if reply.delay ≤ scene.settings.timeout then
        ⟨ask.launched + reply.delay,
          judge scene.question 0 ask.protocol scene.settings.negativeTtl result⟩
      else ⟨ask.launched + scene.settings.timeout, .failed .timeout⟩
  | none => ⟨ask.launched + scene.settings.timeout, .failed .timeout⟩

def send (share : Share κ γ) (ask : Ask κ γ) : Share κ γ :=
  let fate := scene.fate ask (scene.reply share.asked)
  { share with
    asked := share.asked + 1
    ask? := some { ask with fate? := some fate } }

def conclude (share : Share κ γ) (ask : Ask κ γ) (fate : Fate) : Share κ γ :=
  match (ask.entry scene.question).afterVerdict scene.settings fate.verdict with
  | .again _ protocol retriesDone =>
      { share with
        ask? :=
          some
            { ask with
              protocol
              retriesDone
              launched := fate.due
              fate? := none } }
  | .answered answer =>
      { share with
        ask? := none
        cache := (share.cache.insert fate.due answer).1
        log :=
          share.log ++ Log.ofDeliveries fate.due
            (Engine.deliveries ask.waiters answer) }

def step? (limit : Nat) (share : Share κ γ) : Option (Share κ γ) :=
  match share.ask? with
  | none => none
  | some ask =>
      match ask.fate? with
      | none => some (scene.send share ask)
      | some fate =>
          if fate.due ≤ limit then some (scene.conclude share ask fate)
            else none

def resolveUncached (now : Nat) (waiter : Waiter κ γ) (flags : Flags)
    (share : Share κ γ) :
    Share κ γ × Except Error (Resolution γ) :=
  if flags.cacheOnly then
    (share, .ok (.ready (Engine.refusal scene.question) waiter.context))
  else
    match share.ask? with
    | some ask =>
        ({ share with
           ask? := some { ask with waiters := ask.waiters ++ [waiter] } },
           .ok .pending)
    | none =>
        match Message.buildQuery scene.question 0 with
        | .error error => (share, .error error)
        | .ok _ =>
            let ask : Ask κ γ :=
              ⟨Engine.initialProtocol scene.settings, 0, now, [waiter], none⟩
            ({ share with ask? := some ask }, .ok .pending)

def resolve (now : Nat) (waiter : Waiter κ γ) (flags : Flags)
    (share : Share κ γ) :
    Share κ γ × Except Error (Resolution γ) :=
  if !share.started then (share, .error .notStarted)
  else if flags.bypassCache then scene.resolveUncached now waiter flags share
  else
    let (cache, answer?) := share.cache.get now scene.question
    let share := { share with cache }
    match answer? with
    | some answer => (share, .ok (.ready answer waiter.context))
    | none => scene.resolveUncached now waiter flags share

def stop (now : Nat) (share : Share κ γ) : Share κ γ :=
  let answer := Answer.failure .error 0 scene.question
  let waiters := (share.ask?.map Ask.waiters).getD []
  { share with
    started := false
    cache := share.cache.clear
    ask? := none
    log :=
      share.log ++ Log.ofDeliveries now (Engine.deliveries waiters answer) }

end Scene

namespace Share

def note (share : Share κ γ) (now : Nat) (sight : Sight κ γ) : Share κ γ :=
  { share with log := share.log ++ [(now, sight)] }

def Goes (scene : Scene) (limit : Nat) : Share κ γ → Share κ γ → Prop :=
  Relation.ReflTransGen fun share next => scene.step? limit share = some next

variable {scene : Scene} {limit : Nat} {share next last other : Share κ γ}

theorem Goes.unique (hgoes : share.Goes scene limit last)
    (hlast : scene.step? limit last = none)
    (hother : share.Goes scene limit other)
    (hrest : scene.step? limit other = none) :
    last = other := by
  induction hgoes using Relation.ReflTransGen.head_induction_on with
  | refl =>
      rcases Relation.ReflTransGen.cases_head hother with rfl | ⟨next, hstep, -⟩
      · rfl
      · rw [hlast] at hstep
        cases hstep
  | head hstep _ ih =>
      rcases Relation.ReflTransGen.cases_head hother with
        rfl | ⟨next, hnext, hgoes⟩
      · rw [hrest] at hstep
        cases hstep
      · rw [hstep] at hnext
        cases hnext
        exact ih hgoes

def Obeys [DecidableEq κ] (scene : Scene) (now : Nat) :
    Command κ γ → Share κ γ → Share κ γ → Prop
  | .advance ms, share, next =>
      share.Goes scene (now + ms) next ∧ scene.step? (now + ms) next = none
  | .start, share, next =>
      next = { share with
               started := share.started || scene.settings.servers ≠ [] }
  | .stop, share, next => next = scene.stop now share
  | .resolve _ caller context flags, share, next =>
      let (share, resolution) := scene.resolve now ⟨caller, context⟩ flags share
      next = share.note now (.resolved scene.question resolution)
  | .lookup _, share, next =>
      let (cache, answer?) := share.cache.get now scene.question
      next = { share with cache }.note now (.found scene.question answer?)
  | .cancel caller, share, next =>
      next = { share with
        ask? := share.ask?.map fun ask =>
          { ask with
            waiters := ask.waiters.filter fun waiter =>
              waiter.caller ≠ caller } }

theorem Obeys.unique [DecidableEq κ] {now : Nat} {command : Command κ γ}
    (hnext : Obeys scene now command share next)
    (hother : Obeys scene now command share other) :
    next = other := by
  cases command with
  | advance => exact hnext.1.unique hnext.2 hother.1 hother.2
  | start | stop | resolve | lookup | cancel => exact hnext.trans hother.symm

end Share

end DnsForwarder.Simulation
