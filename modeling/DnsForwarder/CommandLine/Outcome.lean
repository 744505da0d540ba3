import DnsForwarder.CommandLine.Invocation
import DnsForwarder.Server.Startup
import DnsForwarder.Simulation.ClientWorld

/-! How a command line is carried out: what is printed, and the exit code. -/

namespace DnsForwarder.CommandLine

inductive Failure where
  | config (error : ConfigError)
  | request (error : Error)
  | start (failure : StartFailure)
  | unresolved (status : Status)
  deriving DecidableEq, Repr

def Failure.message : Failure → String
  | .config error => error.message
  | .request error => error.message
  | .start failure => failure.message
  | .unresolved status => s!"resolution failed: {status}"

structure Outcome where
  exitCode : UInt32
  output : String := ""
  complaint : String := ""
  deriving DecidableEq, Repr

/-- The surroundings of a run: the files, the memory, the sockets, and what the
servers reply. -/
structure Surroundings where
  file : String → Config.FileState
  memory : Memory
  sockets : Sockets
  nameServers : Simulation.NameServers

def programName : String := "relaydns"

def programVersion : String := "0.3.0"

namespace Outcome

def failed (failure : Failure) (output : String := "") : Outcome :=
  { exitCode := 1, output, complaint := s!"Error: {failure.message}" }

/-- The process was ended. What it prints then is left open. -/
def aborted : Outcome :=
  { exitCode := 134 }

def ofStartFailure : StartFailure → Outcome
  | .noRoom => aborted
  | failure => failed (.start failure)

def ofInterruption : Interruption → Outcome
  | .help => { exitCode := 0 }
  | .version =>
      { exitCode := 0, output := s!"{programName} {programVersion}\n" }
  | .misuse => { exitCode := 2 }

def answerText (answer : Answer) : String :=
  let head := s!";; {answer.question} status: {answer.status} ttl: {answer.ttl}"
  String.join ((head :: answer.records.map Record.text).map fun line =>
    line ++ "\n")

/-- An answer is printed in any case, but only some are a success. -/
def ofAnswer (answer : Answer) : Outcome :=
  if answer.status.isCacheable then
    { exitCode := 0, output := answerText answer }
  else failed (.unresolved answer.status) (answerText answer)

def ofReply : ClientReply → Outcome
  | .ok answer => ofAnswer answer
  | .error error => failed (.request error)

end Outcome

/-- Asks one question with a client that has an engine of its own. -/
def lookup (engine : Engine (Option String) Nat)
    (nameServers : Simulation.NameServers) (question : Question)
    (flags : Flags) : ClientReply := do
  let world ← Simulation.World.start (.create engine (.create none) nameServers)
  let world ← Simulation.ClientWorld.startClient world
  (Simulation.ClientWorld.ask world question flags).2

def runQuery (config : Config) (surroundings : Surroundings)
    (name type : String) (noCache : Bool) : Outcome :=
  match (do Question.ofText (← RecordType.parse type) name) with
  | .error error => .failed (.request error)
  | .ok question =>
      match Settings.ofConfig config.dns with
      | .error error => .failed (.config error)
      | .ok settings =>
          match Engine.create? surroundings.memory settings
            Simulation.messageIds with
          | none => .aborted
          | some engine =>
              let flags : Flags := { bypassCache := noCache }
              .ofReply (lookup engine surroundings.nameServers question flags)

def serverReactor : String := "relaydns-reactor"

def runServe (config : Config) (surroundings : Surroundings) : Outcome :=
  let dispatcher :=
    Dispatcher.create serverReactor { machine := surroundings.sockets }
  match (startServer surroundings.memory Sockets.network Simulation.messageIds
    config dispatcher).2 with
  | .error failure => .ofStartFailure failure
  | .ok _ => { exitCode := 0 }

def run (words : List String) (surroundings : Surroundings) : Outcome :=
  match Invocation.parse words with
  | .error interruption => .ofInterruption interruption
  | .ok invocation =>
      let file := (invocation.config?.map surroundings.file).getD .missing
      match invocation.configuration file with
      | .error error => .failed (.config error)
      | .ok config =>
          match invocation.command with
          | .serve _ _ => runServe config surroundings
          | .query name type noCache =>
              runQuery config surroundings name type noCache

end DnsForwarder.CommandLine
