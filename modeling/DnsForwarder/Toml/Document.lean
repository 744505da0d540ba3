import DnsForwarder.Toml.Quoted
import DnsForwarder.Toml.Scalar

/-! Reading TOML documents. -/

namespace DnsForwarder.Toml

def skipComment : List Char → Option (List Char)
  | [] => some []
  | '\n' :: rest => some ('\n' :: rest)
  | '\r' :: '\n' :: rest => some ('\r' :: '\n' :: rest)
  | c :: rest => if isTextChar c then skipComment rest else none

/-- Skips blanks and a comment, and then the end of the line, which the end of
the text may be. -/
def skipLineEnd (text : List Char) : Option (List Char) :=
  let behind :=
    match skipBlanks text with
    | '#' :: rest => skipComment rest
    | rest => some rest
  match behind with
  | some [] => some []
  | some ('\n' :: rest) => some rest
  | some ('\r' :: '\n' :: rest) => some rest
  | _ => none

/-- Skips blanks, line ends and comments; `inComment` begins inside a
comment. -/
def skipSpace : (inComment : Bool) → List Char → Option (List Char)
  | _, [] => some []
  | _, '\n' :: rest => skipSpace false rest
  | _, '\r' :: '\n' :: rest => skipSpace false rest
  | true, c :: rest => if isTextChar c then skipSpace true rest else none
  | false, ' ' :: rest => skipSpace false rest
  | false, '\t' :: rest => skipSpace false rest
  | false, '#' :: rest => skipSpace true rest
  | false, rest => some rest

def skipLines (text : List Char) : Option (List Char) :=
  skipSpace false text

abbrev Reading := Option (Value × List Char)

def readText (text : List Char) : Reading :=
  (readString text).map fun (content, rest) =>
    (.string (String.ofList content), rest)

def maxDepth : Nat := 80

mutual

def readValue : (steps depth : Nat) → List Char → Reading
  | 0, _, _ => none
  | steps + 1, depth, text =>
      match text with
      | '"' :: _ => readText text
      | '\'' :: _ => readText text
      | '[' :: rest =>
          if depth = 0 then none
          else do readItems steps (depth - 1) [] (← skipLines rest)
      | '\x7b' :: rest =>
          if depth = 0 then none
          else do readFields steps (depth - 1) [] (← skipLines rest)
      | _ =>
          let (token, rest) := takeToken text
          (scalar? token).map fun value => (value, rest)

def readItems : (steps depth : Nat) → List Value → List Char → Reading
  | 0, _, _, _ => none
  | steps + 1, depth, items, text =>
      match text with
      | ']' :: rest => some (.array false items, rest)
      | _ => do
          let (item, rest) ← readValue steps depth text
          match ← skipLines rest with
          | ']' :: rest => return (.array false (items ++ [item]), rest)
          | ',' :: rest =>
              do readItems steps depth (items ++ [item]) (← skipLines rest)
          | _ => none

def readFields : (steps depth : Nat) → Entries → List Char → Reading
  | 0, _, _, _ => none
  | steps + 1, depth, entries, text =>
      match text with
      | '\x7d' :: rest => some (.table .inline entries, rest)
      | _ => do
          let (path, rest) ← readPath text
          match ← skipLines rest with
          | '=' :: rest => do
              let (value, rest) ← readValue steps depth (← skipLines rest)
              let entries ← entries.assign? path.dropLast
                  (path.getLastD "") value
              match ← skipLines rest with
              | '\x7d' :: rest => return (.table .inline entries, rest)
              | ',' :: rest =>
                  do readFields steps depth entries (← skipLines rest)
              | _ => none
          | _ => none

end

structure Document where
  entries : Entries
  path : List String

def Document.assign? (document : Document) (path : List String)
    (value : Value) : Option Document :=
  let act := fun (_ : Origin) (inner : Entries) =>
    inner.assign? path.dropLast (path.getLastD "") value
  (document.entries.change .implied act document.path .header).map
    fun entries => { document with entries }

def readHeader (document : Document) (text : List Char) :
    Option (Document × List Char) := do
  match text with
  | '[' :: text => do
      let (path, rest) ← readPath text
      match rest with
      | ']' :: ']' :: rest => do
          let entries ← document.entries.appendTable? path.dropLast
              (path.getLastD "")
          return (⟨entries, path⟩, rest)
      | _ => none
  | text => do
      let (path, rest) ← readPath text
      match rest with
      | ']' :: rest => do
          let entries ← document.entries.openTable? path.dropLast
              (path.getLastD "")
          return (⟨entries, path⟩, rest)
      | _ => none

def readAssignment (document : Document) (text : List Char) :
    Option (Document × List Char) := do
  let (path, rest) ← readPath text
  match rest with
  | '=' :: rest => do
      let (value, rest) ← readValue rest.length.succ maxDepth (skipBlanks rest)
      return (← document.assign? path value, rest)
  | _ => none

def readDocument : (steps : Nat) → Document → List Char → Option Entries
  | 0, _, _ => none
  | steps + 1, document, text =>
      match skipLines text with
      | none => none
      | some [] => some document.entries
      | some ('[' :: rest) => do
          let (document, rest) ← readHeader document rest
          readDocument steps document (← skipLineEnd rest)
      | some text => do
          let (document, rest) ← readAssignment document text
          readDocument steps document (← skipLineEnd rest)

def byteOrderMark : Char := Char.ofNat 0xFEFF

/-- Reads a document; a byte order mark in front of it is ignored. -/
def parse? (text : List Char) : Option Value :=
  let text :=
    match text with
    | first :: rest => if first = byteOrderMark then rest else text
    | [] => []
  (readDocument text.length.succ ⟨[], []⟩ text).map (.table .header)

end DnsForwarder.Toml
