/-! What can go wrong, by cause, and the one place where each cause is put into
words. -/

namespace DnsForwarder

inductive NameFault where
  | empty
  | tooLong
  | emptyLabel (text : String)
  | labelTooLong (label : String)
  | badCharacter (text : String)
  | unencodable (text : String)
  deriving DecidableEq, Repr

inductive MessageFault where
  | undecodable
  | unencodable
  | notAResponse
  | shorterThanId
  | tooLargeToFrame (size : Nat)
  deriving DecidableEq, Repr

inductive Error where
  | invalidName (fault : NameFault)
  | unsupportedType (text : String)
  | invalidMessage (fault : MessageFault)
  | io (reason : String)
  | notStarted
  | dispatcherStopped (name : String)
  | bridgeClosed
  | clientShutdown
  | sendFailed (peer reason : String)
  | wouldBlock (call : String)
  | startFailed (reason : String)
  deriving DecidableEq, Repr

namespace NameFault

def maxNameLength : Nat := 253

def maxLabelLength : Nat := 63

def message : NameFault → String
  | .empty => "domain name cannot be empty"
  | .tooLong => s!"domain name exceeds {maxNameLength} characters"
  | .emptyLabel text => s!"empty label in '{text}'"
  | .labelTooLong label =>
      s!"label '{label}' exceeds {maxLabelLength} characters"
  | .badCharacter text => s!"invalid character in '{text}'"
  | .unencodable text => s!"Invalid domain '{text}':"

end NameFault

namespace MessageFault

def message : MessageFault → String
  | .undecodable => "Failed to parse DNS response:"
  | .unencodable => "Failed to serialize DNS message:"
  | .notAResponse => "QR bit not set in upstream response"
  | .shorterThanId => "DNS message shorter than its ID"
  | .tooLargeToFrame size =>
      s!"DNS message too large for TCP framing: {size} bytes"

end MessageFault

namespace Error

def message : Error → String
  | .invalidName fault => s!"Invalid domain name: {fault.message}"
  | .unsupportedType text => s!"Unsupported query type: {text}"
  | .invalidMessage fault => s!"Invalid DNS response: {fault.message}"
  | .io reason => s!"I/O error: {reason}"
  | .notStarted => "Resolver engine is not started"
  | .dispatcherStopped name => s!"Dispatcher '{name}' is stopped"
  | .bridgeClosed => "Bridge is closed"
  | .clientShutdown => "DNS client has been shut down"
  | .sendFailed peer reason =>
      s!"Failed to send DNS response to {peer}: {reason}"
  | .wouldBlock call => s!"Operation would block the reactor thread: {call}"
  | .startFailed reason => s!"Component failed to start: {reason}"

end Error

end DnsForwarder
