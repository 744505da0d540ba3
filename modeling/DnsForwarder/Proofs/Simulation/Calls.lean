import DnsForwarder.Simulation.World

/-! Runs of a simulated world: calls to an engine, steps of the clock between
them, and what the callers see of it all. -/

namespace DnsForwarder.Simulation

variable {κ γ : Type}

/-- Something that callers see: how a request went, what a look-up found, an
answer handed over. -/
inductive Sight (κ γ : Type) where
  | resolved (question : Question) (resolution : Except Error (Resolution γ))
  | found (question : Question) (answer? : Option Answer)
  | delivered (delivery : Delivery κ γ)

def Sight.question : Sight κ γ → Question
  | .resolved question _ => question
  | .found question _ => question
  | .delivered delivery => delivery.answer.question

abbrev Log (κ γ : Type) := List (Nat × Sight κ γ)

namespace Log

def about (question : Question) (log : Log κ γ) : Log κ γ :=
  log.filter fun seen => seen.2.question == question

theorem about_append (question : Question) (early late : Log κ γ) :
    about question (early ++ late) =
      about question early ++ about question late :=
  List.filter_append _ _

def ofDeliveries (now : Nat) (deliveries : List (Delivery κ γ)) : Log κ γ :=
  deliveries.map fun delivery => (now, .delivered delivery)

theorem about_ofDeliveries (question : Question) (now : Nat)
    (deliveries : List (Delivery κ γ)) :
    about question (ofDeliveries now deliveries) =
      ofDeliveries now
        (deliveries.filter fun delivery =>
          delivery.answer.question == question) := by
  simp only [about, ofDeliveries, List.filter_map]
  rfl

end Log

/-- Callers that take their answers and make no calls of their own then. -/
def recorder : Host κ γ (Log κ γ) where
  deliver now delivery state :=
    (state.1, state.2 ++ [(now, .delivered delivery)])
  followUps _ := 0

inductive Command (κ γ : Type) where
  | advance (ms : Nat)
  | start
  | stop
  | resolve (question : Question) (caller : κ) (context : γ) (flags : Flags)
  | lookup (question : Question)
  | cancel (caller : κ)

namespace Command

def question? : Command κ γ → Option Question
  | .resolve question .. => some question
  | .lookup question => some question
  | _ => none

def sparesOthers (question : Question) (command : Command κ γ) : Bool :=
  command.question?.all fun asked => asked == question

def clock (now : Nat) : Command κ γ → Nat
  | .advance ms => now + ms
  | _ => now

theorem clock_of_others {question : Question} {command : Command κ γ}
    (now : Nat) (hother : command.sparesOthers question = false) :
    command.clock now = now := by
  cases command with
  | advance => cases hother
  | _ => rfl

end Command

namespace World

def note (world : World κ γ (Log κ γ)) (sight : Sight κ γ) :
    World κ γ (Log κ γ) :=
  { world with host := world.host ++ [(world.now, sight)] }

def obey [DecidableEq κ] (world : World κ γ (Log κ γ)) :
    Command κ γ → World κ γ (Log κ γ)
  | .advance ms => world.advance recorder ms
  | .start =>
      match world.start with
      | .ok world => world
      | .error _ => world
  | .stop => world.stop recorder
  | .resolve question caller context flags =>
      let (engine, resolution) :=
        world.engine.resolve world.now question caller context flags
      { world with engine }.note (.resolved question resolution)
  | .lookup question =>
      let (engine, answer?) := world.engine.lookup world.now question
      { world with engine }.note (.found question answer?)
  | .cancel caller => { world with engine := (world.engine.cancel caller).1 }

def run [DecidableEq κ] (settings : Settings) (ids : Nat → UInt16)
    (nameServers : NameServers) (commands : List (Command κ γ)) :
    World κ γ (Log κ γ) :=
  commands.foldl obey (.create (.create settings ids) [] nameServers)

theorem deliverAll_recorder (world : World κ γ (Log κ γ))
    (deliveries : List (Delivery κ γ)) :
    world.deliverAll recorder deliveries =
      { world with
        host := world.host ++ Log.ofDeliveries world.now deliveries } := by
  have hfold (state : Engine κ γ × Log κ γ) :
      deliveries.foldl (fun state delivery =>
        recorder.deliver world.now delivery state) state =
        (state.1, state.2 ++ Log.ofDeliveries world.now deliveries) := by
    induction deliveries generalizing state with
    | nil => simp [Log.ofDeliveries]
    | cons delivery deliveries ih =>
        rw [List.foldl_cons, ih]
        simp [recorder, Log.ofDeliveries]
  rw [deliverAll, hfold]

theorem apply_recorder (world : World κ γ (Log κ γ))
    (step : Engine κ γ × List (Delivery κ γ)) :
    world.apply recorder step =
      { world with
        engine := step.1
        host := world.host ++ Log.ofDeliveries world.now step.2 } := by
  rw [apply, deliverAll_recorder]

end World

end DnsForwarder.Simulation
