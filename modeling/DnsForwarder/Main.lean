import DnsForwarder.CommandLine.Outcome
import DnsForwarder.Transport.Route

/-! The program on the command line. It has no sockets: nothing can be served,
and every exchange with a server fails. -/

namespace DnsForwarder

/-- What stands under a path; a file that cannot be read counts as missing. -/
def readFile (path : String) : IO Config.FileState := do
  try return .contents ((← IO.FS.readBinFile path).toList)
  catch
    | .inappropriateType .. => return .directory
    | _ => return .missing

def offline (file : Config.FileState) : CommandLine.Surroundings where
  file _ := file
  memory := roomyMemory
  sockets := { isLocal := fun _ => false }
  nameServers _ _ := ⟨.fail Transport.unreachableReason, 0⟩

def configPath? (words : List String) : Option String :=
  match CommandLine.Invocation.parse words with
  | .ok invocation => invocation.config?
  | .error _ => none

def runWords (words : List String) : IO UInt32 := do
  let file ←
    match configPath? words with
    | some path => readFile path
    | none => pure .missing
  let outcome := CommandLine.run words (offline file)
  IO.print outcome.output
  if outcome.complaint ≠ "" then IO.eprintln outcome.complaint
  return outcome.exitCode

end DnsForwarder

def main (words : List String) : IO UInt32 :=
  DnsForwarder.runWords words
