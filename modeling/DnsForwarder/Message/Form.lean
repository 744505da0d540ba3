import DnsForwarder.Message.NameReader
import DnsForwarder.Message.Options
import DnsForwarder.Message.Service

/-! The forms of data that a message may hold and that nobody here asks for.
Such data is left out, but a message in which it has the wrong form is no
message. -/

namespace DnsForwarder.Message

open Cursor

/-- Reads data of some form. It begins at the cursor and has `size` bytes; where
reading ends shows whether the form uses them all. -/
abbrev Form := (size : Nat) → Cursor → Option Cursor

namespace Form

def never : Form := fun _ _ => none

def bytes (fits : Octets → Bool) : Form := fun size cursor => do
  let (space, behind) ← cursor.take? size
  if fits space then return behind else none

def atLeast (count : Nat) : Form :=
  bytes fun space => count ≤ space.length

def isAlphanumeric (byte : UInt8) : Bool :=
  (Char.ofNat byte.toNat).isAlphanum

def nameOnly : Form := fun _ cursor =>
  (readName cursor).map Prod.snd

def host : Form := fun _ cursor => do
  let (_, cursor) ← cursor.string?
  let (_, cursor) ← cursor.string?
  return cursor

def rewriting : Form := fun _ cursor => do
  let (_, cursor) ← cursor.word?
  let (_, cursor) ← cursor.word?
  let (flags, cursor) ← cursor.string?
  let (_, cursor) ← cursor.string?
  let (_, cursor) ← cursor.string?
  let (_, cursor) ← readName cursor
  if flags.all isAlphanumeric then return cursor else none

def service : Form := fun size cursor => do
  let stop := cursor.offset + size
  let (_, cursor) ← cursor.word?
  let (_, cursor) ← readName cursor
  let (parameters, cursor) ← cursor.take? (stop - cursor.offset)
  if parametersFit none parameters then return cursor else none

/-- Whether bytes are blocks of a bit map, each a number, a length and so many
bytes, of which only the first 32 can count. The last block may be empty or cut
off. -/
def areBlocks : Octets → Bool
  | _ :: length :: rest =>
      let block := rest.take length.toNat
      (length != 0 || rest.isEmpty) && (block.drop 32).all (· == 0) &&
        areBlocks (rest.drop length.toNat)
  | _ => true
termination_by bytes => bytes.length
decreasing_by
  simp only [List.length_drop, List.length_cons]
  omega

/-- Whether bytes tell a parent zone what to take over: a serial number of four
bytes, two bytes with flags, of which the low one knows two, and a bit map of
types. -/
def isSynchronization : Octets → Bool
  | _ :: _ :: _ :: _ :: _ :: flags :: blocks => flags < 4 && areBlocks blocks
  | _ => false

/-- Whether bytes say who may certify: flags, the length of a tag, the tag, and
any value. -/
def isAuthorization : Octets → Bool
  | _ :: length :: rest =>
      let tag := rest.take length.toNat
      1 ≤ length && length ≤ 15 && length.toNat ≤ rest.length &&
        tag.all isAlphanumeric
  | _ => false

def known : List (UInt16 × Form) :=
  [(0, never), (13, host), (35, rewriting),
    -- certificates, fingerprints and key associations: some numbers, and then
    -- any bytes
    (37, atLeast 6), (44, atLeast 2), (52, atLeast 3),
    (extensionCode, fun size cursor => bytes (optionsFit size) size cursor),
    (62, bytes isSynchronization), (64, service), (65, service),
    -- types of questions
    (251, never), (252, never), (255, never),
    (257, bytes isAuthorization), (65305, nameOnly)]

/-- The form of the data of a type; without one of its own, any bytes. -/
def ofCode (typeCode : UInt16) : Form :=
  (known.lookup typeCode).getD (atLeast 0)

end Form

end DnsForwarder.Message
