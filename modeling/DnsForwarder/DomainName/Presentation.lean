import DnsForwarder.DomainName.Labels
import DnsForwarder.Error
import DnsForwarder.Text.Blank
import DnsForwarder.Text.Numeral
import DnsForwarder.Text.Split

/-! The presentation form of a name: its labels as text with dots between them,
and escapes for the bytes that are not plain. Reading accepts fewer labels than
writing produces: only letters, digits, underscores, dots behind an escape,
hyphens inside a label and an asterisk in front of one. -/

namespace DnsForwarder.DomainName

/-- Whether a byte stands for itself in a label, where `leading` says that it is
the first one. -/
def isPlain (leading : Bool) (c : Char) : Bool :=
  c.isAlphanum || c == '_' || (c == '-' && !leading) || (c == '*' && leading)

def octalDigit (value : Nat) : Char :=
  Char.ofNat ('0'.toNat + value % 8)

/-- A byte as itself, behind a backslash, or as a backslash and three octal
digits. -/
def byteText (leading : Bool) (byte : UInt8) : List Char :=
  let c := Char.ofNat byte.toNat
  if isPlain leading c then [c]
  else if 0x20 < byte ∧ byte < 0x7F then ['\\', c]
  else
    let code := byte.toNat
    ['\\', octalDigit (code / 64), octalDigit (code / 8), octalDigit code]

def labelText : Label → List Char
  | [] => []
  | byte :: rest => byteText true byte ++ rest.flatMap (byteText false)

def text (labels : Labels) : List Char :=
  if labels = [] then ['.']
  else labels.flatMap fun label => labelText label ++ ['.']

/-- The form in which answers carry the text of a name: in lowercase and without
the dot at its end. -/
def stored (text : List Char) : List Char :=
  match Text.dropEnding? ['.'] (Text.fold text) with
  | some (c :: rest) => c :: rest
  | _ => ['.']

def storedText (labels : Labels) : List Char :=
  stored (text labels)

inductive Symbol where
  | char (c : Char)
  | dot
  deriving DecidableEq, Repr

def octal? (c : Char) : Option Nat :=
  Text.digit? 8 c

def beginsNumber (c : Char) : Bool :=
  c.isDigit

/-- Resolves escapes. Three octal digits behind a backslash name a character,
anything else stands for itself; an escape that the end of the text cuts off is
dropped. White space and control characters need an escape. -/
def symbols? : List Char → Option (List Symbol)
  | [] => some []
  | '\\' :: [] => some []
  | '\\' :: c :: rest =>
      if beginsNumber c then
        match octal? c, rest with
        | none, _ => none
        | some _, [] => some []
        | some high, d :: rest =>
            match octal? d, rest with
            | none, _ => none
            | some _, [] => some []
            | some middle, e :: rest =>
                match octal? e with
                | none => none
                | some low =>
                    (symbols? rest).map
                      (.char (Char.ofNat (high * 64 + middle * 8 + low)) :: ·)
      else (symbols? rest).map (.char c :: ·)
  | c :: rest =>
      if c = '.' then (symbols? rest).map (.dot :: ·)
      else if Text.isBlank c || Text.isControl c then none
      else (symbols? rest).map (.char c :: ·)

def pieces : List Symbol → List (List Char)
  | [] => [[]]
  | .dot :: rest => [] :: pieces rest
  | .char c :: rest =>
      match pieces rest with
      | [] => [[c]]
      | first :: others => (c :: first) :: others

def label? (chars : List Char) : Option Label :=
  match chars with
  | [] => none
  | first :: rest =>
      if (isPlain true first || first == '.') &&
          rest.all (fun c => isPlain false c || c == '.') &&
          chars.length ≤ 63 then
        some (chars.map fun c => UInt8.ofNat c.toNat)
      else none

/-- The labels that a text gives, and whether a dot ends the last one. A dot
behind an escape does not. -/
structure Spelled where
  labels : Labels
  qualified : Bool

def spelled? (text : List Char) : Option Spelled := do
  if text = ['.'] then return ⟨[], true⟩
  let pieces := pieces (← symbols? text)
  let qualified := pieces.getLast? == some []
  let labels ← (if qualified then pieces.dropLast else pieces).mapM label?
  if Labels.span labels + 1 ≤ Labels.maxLength then
    some ⟨labels, qualified⟩ else none

def ofText? (text : List Char) : Option Labels :=
  (spelled? text).map Spelled.labels

def Spelled.text (name : Spelled) : List Char :=
  if name.qualified then DomainName.text name.labels
    else (DomainName.text name.labels).dropLast

def toSpelled (name : String) : Except Error Spelled :=
  let chars := name.toList
  if chars = [] then .ok ⟨[], true⟩
  else
    match spelled?
      (if chars.getLast? = some '.' then chars else chars ++ ['.']) with
    | some spelled => .ok spelled
    | none => .error (.invalidName (.unencodable name))

def toLabels (name : String) : Except Error Labels :=
  (toSpelled name).map Spelled.labels

def respell (name : String) : Except Error String :=
  (toSpelled name).map fun spelled => String.ofList (stored spelled.text)

end DnsForwarder.DomainName
