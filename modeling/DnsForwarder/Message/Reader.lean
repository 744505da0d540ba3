import DnsForwarder.Message.Basic
import DnsForwarder.Message.Form

/-! Decoding messages. Whatever follows the last counted record is ignored. -/

namespace DnsForwarder.Message

open Cursor

def readSigned (cursor : Cursor) : Option (Int32 × Cursor) := do
  let (long, cursor) ← cursor.long?
  return (long.toInt32, cursor)

/-- Data of a type that `RecordData` knows, without regard to where it has to
end. -/
def readKnown (type : Option RecordType) (size : Nat) (cursor : Cursor) :
    Option (RecordData Labels Octets × Cursor) :=
  match type with
  | some .a => do
      let (bytes, cursor) ← cursor.take? 4
      return (.a (← Ipv4.ofOctets? bytes), cursor)
  | some .aaaa => do
      let (bytes, cursor) ← cursor.take? 16
      return (.aaaa (← Ipv6.ofOctets? bytes), cursor)
  | some .ptr => do
      let (target, cursor) ← readName cursor
      return (.ptr target, cursor)
  | some .ns => do
      let (target, cursor) ← readName cursor
      return (.ns target, cursor)
  | none => do
      let (target, cursor) ← readName cursor
      return (.cname target, cursor)
  | some .mx => do
      let (preference, cursor) ← cursor.word?
      let (exchange, cursor) ← readName cursor
      return (.mx preference exchange, cursor)
  | some .soa => do
      let (primary, cursor) ← readName cursor
      let (mailbox, cursor) ← readName cursor
      let (serial, cursor) ← cursor.long?
      let (refresh, cursor) ← readSigned cursor
      let (retry, cursor) ← readSigned cursor
      let (expire, cursor) ← readSigned cursor
      let (minimum, cursor) ← cursor.long?
      return (.soa primary mailbox serial refresh retry expire minimum, cursor)
  | some .srv => do
      let (priority, cursor) ← cursor.word?
      let (weight, cursor) ← cursor.word?
      let (port, cursor) ← cursor.word?
      let (target, cursor) ← readName cursor
      return (.srv priority weight port target, cursor)
  | some .txt => do
      let (strings, cursor) ← cursor.strings? (cursor.offset + size) size
      return (.txt strings, cursor)

/-- The data of a record, of `size` bytes, which it has to use exactly. Only
data of the types of `RecordData` is kept. -/
def readData (typeCode : UInt16) (size : Nat) (cursor : Cursor) :
    Option (Option (RecordData Labels Octets) × Cursor) := do
  let (_, behind) ← cursor.take? size
  if size = 0 then return (none, behind)
  let (data?, used) ←
    match RecordType.ofCode? typeCode, typeCode == RecordData.aliasCode with
    | none, false =>
        (Form.ofCode typeCode size cursor).map fun cursor => (none, cursor)
    | type?, _ =>
        (readKnown type? size cursor).map fun (data, cursor) =>
          (some data, cursor)
  if used.offset = behind.offset then return (data?, behind) else none

def readEntry (cursor : Cursor) : Option (Entry × Cursor) := do
  let (owner, cursor) ← readName cursor
  let (typeCode, cursor) ← cursor.word?
  if typeCode = extensionCode ∧ owner ≠ [] then none
  let (classCode, cursor) ← cursor.word?
  let (ttl, cursor) ← cursor.long?
  let (size, cursor) ← cursor.word?
  let (data, cursor) ← readData typeCode size.toNat cursor
  return (⟨owner, typeCode, classCode, ttl, data⟩, cursor)

def readInquiry (cursor : Cursor) : Option (Inquiry × Cursor) := do
  let (name, cursor) ← readName cursor
  let (typeCode, cursor) ← cursor.word?
  let (classCode, cursor) ← cursor.word?
  return (⟨name, typeCode, classCode⟩, cursor)

def readMany {α : Type} (read : Cursor → Option (α × Cursor)) :
    (count : Nat) → Cursor → Option (List α × Cursor)
  | 0, cursor => some ([], cursor)
  | count + 1, cursor => do
      let (first, cursor) ← read cursor
      let (others, cursor) ← readMany read count cursor
      return (first :: others, cursor)

def minPayload : UInt16 := 512

def Entry.isExtension (entry : Entry) : Bool :=
  entry.typeCode == extensionCode

def Entry.extension (entry : Entry) : Extension :=
  ⟨max minPayload entry.classCode, UInt8.ofNat (entry.ttl.toNat / 0x1000000)⟩

def flag (byte : UInt8) (index : Nat) : Bool :=
  byte.toNat.testBit index

def readHeader (cursor : Cursor) : Option (Header × Cursor) := do
  let (id, cursor) ← cursor.word?
  let (high, cursor) ← cursor.byte?
  let (low, cursor) ← cursor.byte?
  return (
    { id
      isResponse := flag high 7
      opcode := UInt8.ofNat (high.toNat / 8 % 16)
      truncated := flag high 1
      recursionDesired := flag high 0
      recursionAvailable := flag low 7
      rcode := UInt16.ofNat (low.toNat % 16) }, cursor)

/-- Decodes a message. At most one extension may stand among the additional
records. -/
def decode? (bytes : Octets) : Option Message := do
  let (header, cursor) ← readHeader (Cursor.ofOffset bytes 0)
  let (questionCount, cursor) ← cursor.word?
  let (answerCount, cursor) ← cursor.word?
  let (authorityCount, cursor) ← cursor.word?
  let (additionalCount, cursor) ← cursor.word?
  let (questions, cursor) ← readMany readInquiry questionCount.toNat cursor
  let (answers, cursor) ← readMany readEntry answerCount.toNat cursor
  let (authority, cursor) ← readMany readEntry authorityCount.toNat cursor
  let (extra, _) ← readMany readEntry additionalCount.toNat cursor
  let extensions := extra.filter Entry.isExtension
  if 1 < extensions.length then none
  return {
    header, questions, answers, authority
    additional := extra.filter fun entry => !entry.isExtension
    extension? := extensions.head?.map Entry.extension }

end DnsForwarder.Message
