import DnsForwarder.Text.Numeral

/-! Quoted texts and keys of TOML. -/

namespace DnsForwarder.Toml

/-- Characters that may stand in a document outside line ends: all but control
characters, and tabs. -/
def isTextChar (c : Char) : Bool :=
  c == '\t' || (0x20 ≤ c.toNat && c.toNat != 0x7F)

def isBlank (c : Char) : Bool :=
  c == ' ' || c == '\t'

def skipBlanks (text : List Char) : List Char :=
  text.dropWhile isBlank

abbrev Quoted := List Char × List Char

def before (chars : List Char) (quoted : Option Quoted) : Option Quoted :=
  quoted.map fun (content, rest) => (chars ++ content, rest)

def escaped? : Char → Option Char
  | 'b' => some '\x08'
  | 'e' => some '\x1b'
  | 't' => some '\t'
  | 'n' => some '\n'
  | 'f' => some '\x0c'
  | 'r' => some '\r'
  | '"' => some '"'
  | '\\' => some '\\'
  | _ => none

def codePoint? (digits : List Char) : Option Char := do
  let code ← Text.ofDigits? 16 digits
  if code.isValidChar then some (Char.ofNat code) else none

def readBasic : List Char → Option Quoted
  | [] => none
  | '"' :: rest => some ([], rest)
  | '\\' :: 'x' :: a :: b :: rest =>
      match codePoint? [a, b] with
      | some char => before [char] (readBasic rest)
      | none => none
  | '\\' :: 'u' :: a :: b :: c :: d :: rest =>
      match codePoint? [a, b, c, d] with
      | some char => before [char] (readBasic rest)
      | none => none
  | '\\' :: 'U' :: a :: b :: c :: d :: e :: f :: g :: h :: rest =>
      match codePoint? [a, b, c, d, e, f, g, h] with
      | some char => before [char] (readBasic rest)
      | none => none
  | '\\' :: c :: rest =>
      match escaped? c with
      | some char => before [char] (readBasic rest)
      | none => none
  | c :: rest => if isTextChar c then before [c] (readBasic rest) else none

def readLiteral : List Char → Option Quoted
  | [] => none
  | '\'' :: rest => some ([], rest)
  | c :: rest => if isTextChar c then before [c] (readLiteral rest) else none

def beginsLine : List Char → Bool
  | '\n' :: _ => true
  | '\r' :: '\n' :: _ => true
  | _ => false

/-- The rest of a text behind three quotation marks. Behind a backslash at the
end of a line, `skipping` leaves out line ends and blanks up to the next other
character. -/
def readMultiline : (skipping : Bool) → List Char → Option Quoted
  | _, [] => none
  | _, '"' :: '"' :: '"' :: '"' :: '"' :: rest => some (['"', '"'], rest)
  | _, '"' :: '"' :: '"' :: '"' :: rest => some (['"'], rest)
  | _, '"' :: '"' :: '"' :: rest => some ([], rest)
  | skipping, '\n' :: rest =>
      if skipping then readMultiline true rest
      else before ['\n'] (readMultiline false rest)
  | skipping, '\r' :: '\n' :: rest =>
      if skipping then readMultiline true rest
      else before ['\r', '\n'] (readMultiline false rest)
  | _, '\\' :: 'x' :: a :: b :: rest =>
      match codePoint? [a, b] with
      | some char => before [char] (readMultiline false rest)
      | none => none
  | _, '\\' :: 'u' :: a :: b :: c :: d :: rest =>
      match codePoint? [a, b, c, d] with
      | some char => before [char] (readMultiline false rest)
      | none => none
  | _, '\\' :: 'U' :: a :: b :: c :: d :: e :: f :: g :: h :: rest =>
      match codePoint? [a, b, c, d, e, f, g, h] with
      | some char => before [char] (readMultiline false rest)
      | none => none
  | _, '\\' :: c :: rest =>
      match escaped? c with
      | some char => before [char] (readMultiline false rest)
      | none =>
          if beginsLine (skipBlanks (c :: rest)) then
            readMultiline true (c :: rest)
          else none
  | skipping, c :: rest =>
      if skipping && isBlank c then readMultiline true rest
      else if isTextChar c then before [c] (readMultiline false rest)
      else none

def readMultilineLiteral : List Char → Option Quoted
  | [] => none
  | '\'' :: '\'' :: '\'' :: '\'' :: '\'' :: rest => some (['\'', '\''], rest)
  | '\'' :: '\'' :: '\'' :: '\'' :: rest => some (['\''], rest)
  | '\'' :: '\'' :: '\'' :: rest => some ([], rest)
  | '\n' :: rest => before ['\n'] (readMultilineLiteral rest)
  | '\r' :: '\n' :: rest => before ['\r', '\n'] (readMultilineLiteral rest)
  | c :: rest =>
      if isTextChar c then before [c] (readMultilineLiteral rest) else none

/-- A line end right behind the opening marks does not belong to the text. -/
def skipFirstLineEnd : List Char → List Char
  | '\n' :: rest => rest
  | '\r' :: '\n' :: rest => rest
  | text => text

def readString : List Char → Option Quoted
  | '"' :: '"' :: '"' :: rest => readMultiline false (skipFirstLineEnd rest)
  | '"' :: rest => readBasic rest
  | '\'' :: '\'' :: '\'' :: rest => readMultilineLiteral (skipFirstLineEnd rest)
  | '\'' :: rest => readLiteral rest
  | _ => none

def isBareKeyChar (c : Char) : Bool :=
  c.isAlphanum || c == '_' || c == '-'

def readKey : List Char → Option Quoted
  | '"' :: rest => readBasic rest
  | '\'' :: rest => readLiteral rest
  | text =>
      let key := text.takeWhile isBareKeyChar
      if key = [] then none else some (key, text.dropWhile isBareKeyChar)

def maxKeys : Nat := 80

def readKeys : (keys : Nat) → List Char → Option (List String × List Char)
  | 0, _ => none
  | keys + 1, text => do
      let (key, rest) ← readKey (skipBlanks text)
      match skipBlanks rest with
      | '.' :: rest => do
          let (others, rest) ← readKeys keys rest
          return (String.ofList key :: others, rest)
      | rest => return ([String.ofList key], rest)

def readPath (text : List Char) : Option (List String × List Char) :=
  readKeys maxKeys text

end DnsForwarder.Toml
