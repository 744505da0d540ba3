import DnsForwarder.Text.Numeral

/-! The words of a command line: options with and without values, and operands.
Words are read from left to right, and the first one that is wrong ends the
reading. -/

namespace DnsForwarder.CommandLine

inductive Flag where
  | config
  | logLevel
  | server
  | port
  | bind
  | type
  | noCache
  | help
  | version
  deriving DecidableEq, Repr

namespace Flag

def long : Flag → String
  | config => "config"
  | logLevel => "log-level"
  | server => "upstream"
  | port => "port"
  | bind => "bind"
  | type => "type"
  | noCache => "no-cache"
  | help => "help"
  | version => "version"

def short? : Flag → Option Char
  | config => some 'c'
  | logLevel => some 'l'
  | server => some 'u'
  | port => some 'p'
  | bind => some 'b'
  | type => some 't'
  | noCache => none
  | help => some 'h'
  | version => some 'V'

def takesValue : Flag → Bool
  | noCache | help | version => false
  | _ => true

def repeats : Flag → Bool
  | server => true
  | _ => false

end Flag

def port? (text : String) : Option UInt16 :=
  match Text.signed? text.toList with
  | some value =>
      if 0 ≤ value ∧ value < 65536 then some (UInt16.ofNat value.toNat)
        else none
  | none => none

def Flag.accepts (flag : Flag) (value : String) : Bool :=
  match flag with
  | .port => (port? value).isSome
  | _ => true

inductive Interruption where
  | help
  | version
  | misuse
  deriving DecidableEq, Repr

inductive Word where
  | escape
  | long (name : List Char) (value? : Option String)
  | short (letter : Char) (rest : List Char)
  | plain (text : String)
  deriving DecidableEq, Repr

namespace Word

def ofLong (text : List Char) : Word :=
  match text.dropWhile (· != '=') with
  | [] => .long text none
  | _ :: value => .long (text.takeWhile (· != '=')) (some (String.ofList value))

def ofText (text : String) : Word :=
  match text.toList with
  | ['-', '-'] => .escape
  | '-' :: '-' :: rest => ofLong rest
  | '-' :: letter :: rest => .short letter rest
  | _ => .plain text

end Word

def attached? : List Char → Option String
  | [] => none
  | '=' :: value => some (String.ofList value)
  | value => some (String.ofList value)

/-- The options that may be given at a place, and how many operands; without a
number, reading stops at the first operand. -/
structure Level where
  flags : List Flag
  operands? : Option Nat
  deriving DecidableEq, Repr

structure Given where
  options : List (Flag × String) := []
  operands : List String := []
  deriving DecidableEq, Repr

namespace Given

def values (given : Given) (flag : Flag) : List String :=
  (given.options.filter fun option => option.1 == flag).map Prod.snd

def value? (given : Given) (flag : Flag) : Option String :=
  (given.values flag).head?

/-- Takes an option; some are asked for instead of everything else. -/
def addOption (given : Given) (flag : Flag) (value : String) :
    Except Interruption Given :=
  match flag with
  | .help => .error .help
  | .version => .error .version
  | _ =>
      if (flag.repeats || (given.values flag).isEmpty) &&
        flag.accepts value then
        .ok { given with options := given.options ++ [(flag, value)] }
      else .error .misuse

def addOperands (given : Given) (limit : Nat) (operands : List String) :
    Except Interruption Given :=
  let operands := given.operands ++ operands
  if operands.length ≤ limit then .ok { given with operands }
    else .error .misuse

end Given

namespace Level

def option? (level : Level) (word : Word) : Option (Flag × Option String) :=
  match word with
  | .long name value? =>
      (level.flags.find? fun flag => flag.long.toList == name).map fun flag =>
        (flag, value?)
  | .short letter rest =>
      (level.flags.find? fun flag => flag.short? == some letter).map fun flag =>
        (flag, if flag.takesValue then attached? rest else none)
  | .escape | .plain _ => none

/-- Reads words up to their end, or up to the first operand where a level takes
none; `awaiting?` is an option whose value comes next. The rest is given
back. -/
def read (level : Level) (given : Given) (awaiting? : Option Flag) :
    List String → Except Interruption (Given × List String)
  | [] => if awaiting?.isSome then .error .misuse else .ok (given, [])
  | text :: rest =>
      match awaiting?, Word.ofText text, level.operands? with
      | some flag, .plain value, _ =>
          do level.read (← given.addOption flag value) none rest
      | some _, _, _ => .error .misuse
      | none, .escape, none => .error .misuse
      | none, .escape, some limit =>
          (given.addOperands limit rest).map fun given => (given, [])
      | none, .plain _, none => .ok (given, text :: rest)
      | none, .plain _, some limit =>
          do level.read (← given.addOperands limit [text]) none rest
      | none, word, _ =>
          match level.option? word with
          | none => .error .misuse
          | some (flag, value?) =>
              match flag.takesValue, value? with
              | true, some value =>
                  do level.read (← given.addOption flag value) none rest
              | true, none => level.read given (some flag) rest
              | false, some _ => .error .misuse
              | false, none =>
                  do level.read (← given.addOption flag "") none rest

end Level

end DnsForwarder.CommandLine
