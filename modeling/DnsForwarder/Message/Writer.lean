import DnsForwarder.Message.Basic

/-! Encoding messages. A name that repeats the end of an earlier name is cut
short by a pointer to it; the table of earlier names holds every such end with
its offset. A record that does not fit is not counted, but what was written of
it until then stays behind the message. -/

namespace DnsForwarder.Message

/-- The ends of names written so far, with their offsets; the latest one
first. -/
abbrev Table := List (Labels × Nat)

def tableLimit : Nat := 0x3FFF

def maxSize : Nat := 65535

def labelBytes (label : Label) : Octets :=
  UInt8.ofNat label.length :: label

def pointerBytes (target : Nat) : Octets :=
  wordBytes (UInt16.ofNat (0xC000 + target))

/-- The table with the end of a name at `offset`. The name is only kept if it
stops below the limit when written in full. -/
def Table.remember (table : Table) (stop offset : Nat) (labels : Labels) :
    Table :=
  if stop < tableLimit then (labels, offset) :: table else table

/-- Writes a name that stops at `stop` when written in full, from its first
label to the one whose remaining labels have been written before. -/
def writeLabels (stop : Nat) : Table → (offset : Nat) → Labels → Octets × Table
  | table, _, [] => ([0], table)
  | table, offset, label :: rest =>
      match table.lookup (label :: rest) with
      | some target => (pointerBytes target, table)
      | none =>
          let table := table.remember stop offset (label :: rest)
          let (bytes, table) :=
            writeLabels stop table (offset + label.length + 1) rest
          (labelBytes label ++ bytes, table)

/-- Writes a name in full. Ends of it that the table lacks are remembered all
the same. -/
def writeInFull (stop : Nat) : Table → (offset : Nat) → Labels → Octets × Table
  | table, _, [] => ([0], table)
  | table, offset, label :: rest =>
      let table :=
        if (table.lookup (label :: rest)).isSome then table
        else table.remember stop offset (label :: rest)
      let (bytes, table) :=
        writeInFull stop table (offset + label.length + 1) rest
      (labelBytes label ++ bytes, table)

inductive Piece where
  /-- Bytes in chunks, each of which has room as a whole or is not begun. -/
  | bytes (chunks : List Octets)
  | name (labels : Labels)
  | fullName (labels : Labels)
  | string (bytes : Octets)

inductive WriteFault where
  /-- It does not fit. These bytes were written until then. -/
  | full (left : Octets)
  | stringTooLong
  deriving DecidableEq, Repr

def WriteFault.behind (front : Octets) : WriteFault → WriteFault
  | .full left => .full (front ++ left)
  | .stringTooLong => .stringTooLong

def fitting : (room : Nat) → (chunks : List Octets) → Octets
  | _, [] => []
  | room, chunk :: rest =>
      if room < chunk.length then []
      else chunk ++ fitting (room - chunk.length) rest

def countedChunks (bytes : Octets) : List Octets :=
  [[UInt8.ofNat bytes.length], bytes]

structure Written where
  bytes : Octets
  table : Table

def Written.upTo (written : Written) (offset stop : Nat)
    (chunks : List Octets) : Except WriteFault Written :=
  if maxSize < stop then .error (.full (fitting (maxSize - offset) chunks))
  else .ok written

def writeChunks (table : Table) (offset : Nat) (chunks : List Octets) :
    Except WriteFault Written :=
  let bytes := chunks.flatten
  Written.upTo ⟨bytes, table⟩ offset (offset + bytes.length) chunks

/-- Writes a piece. A name has to fit in full, even if a pointer shortens it. -/
def writePiece (table : Table) (offset : Nat) :
    Piece → Except WriteFault Written
  | .bytes chunks => writeChunks table offset chunks
  | .name labels =>
      let stop := offset + labels.span
      let (bytes, table) := writeLabels stop table offset labels
      Written.upTo ⟨bytes, table⟩ offset (max stop (offset + bytes.length))
        (labels.flatMap countedChunks)
  | .fullName labels =>
      let (bytes, table) :=
        writeInFull (offset + labels.span) table offset labels
      Written.upTo ⟨bytes, table⟩ offset (offset + bytes.length)
        (labels.flatMap countedChunks)
  | .string bytes =>
      if 255 < bytes.length then .error .stringTooLong
      else writeChunks table offset (countedChunks bytes)

def writePieces (table : Table) (offset : Nat) :
    List Piece → Except WriteFault Written
  | [] => .ok ⟨[], table⟩
  | piece :: rest => do
      let first ← writePiece table offset piece
      let others ← (writePieces first.table (offset + first.bytes.length) rest)
        |>.mapError (.behind first.bytes)
      return ⟨first.bytes ++ others.bytes, others.table⟩

def signedBytes (value : Int32) : Octets :=
  longBytes value.toUInt32

/-- The pieces of a record's data. The target of a service stands in full and in
lowercase. -/
def dataPieces : RecordData Labels Octets → List Piece
  | .a address => [.bytes (address.octets.map fun octet => [octet])]
  | .aaaa address => [.bytes (address.groups.map wordBytes)]
  | .ptr target => [.name target]
  | .ns target => [.name target]
  | .cname target => [.name target]
  | .mx preference exchange =>
      [.bytes [wordBytes preference], .name exchange]
  | .soa primary mailbox serial refresh retry expire minimum =>
      [ .name primary
      , .name mailbox
      , .bytes
          [longBytes serial, signedBytes refresh, signedBytes retry,
            signedBytes expire, longBytes minimum] ]
  | .srv priority weight port target =>
      [ .bytes [wordBytes priority, wordBytes weight, wordBytes port]
      , .fullName target.lower ]
  | .txt strings => strings.map .string

def headPieces (record : WireRecord) : List Piece :=
  [ .name record.owner
  , .bytes
      [wordBytes record.data.typeCode, wordBytes internet, longBytes record.ttl,
        [0, 0]] ]

/-- Writes a record. The length of its data takes its place at last. -/
def writeRecord (table : Table) (offset : Nat) (record : WireRecord) :
    Except WriteFault Written := do
  let head ← writePieces table offset (headPieces record)
  let stop := offset + head.bytes.length
  let data ← (writePieces head.table stop (dataPieces record.data))
    |>.mapError (.behind head.bytes)
  let size := wordBytes (UInt16.ofNat data.bytes.length)
  let front := head.bytes.take (head.bytes.length - 2)
  return ⟨front ++ size ++ data.bytes, data.table⟩

def inquiryPieces (inquiry : Inquiry) : List Piece :=
  [ .name inquiry.name
  , .bytes [wordBytes inquiry.typeCode, wordBytes inquiry.classCode] ]

/-- Records written one behind the other. -/
structure AnswerSection where
  bytes : Octets
  /-- How many of them fitted into the message. -/
  count : Nat
  /-- What was written of the first that did not. -/
  left : Octets

def writeRecords (table : Table) (offset : Nat) :
    List WireRecord → Except WriteFault AnswerSection
  | [] => .ok ⟨[], 0, []⟩
  | record :: rest =>
      match writeRecord table offset record with
      | .error (.full left) => .ok ⟨[], 0, left⟩
      | .error fault => .error fault
      | .ok first =>
          match writeRecords first.table (offset + first.bytes.length) rest with
          | .error fault => .error fault
          | .ok others =>
              .ok { others with
                bytes := first.bytes ++ others.bytes
                count := others.count + 1 }

def bit (value : Bool) (weight : Nat) : Nat :=
  if value then weight else 0

def flagBytes (header : Header) : Octets :=
  [ UInt8.ofNat (bit header.isResponse 0x80 + header.opcode.toNat % 16 * 8 +
      bit header.truncated 2 + bit header.recursionDesired 1)
  , UInt8.ofNat (bit header.recursionAvailable 0x80 + header.rcode.toNat % 16) ]

def countBytes (count : Nat) : Octets :=
  wordBytes (UInt16.ofNat count)

def headerSize : Nat := 12

/-- Encodes a message with questions and answers. Answers from the first that
does not fit are left out, and the message is marked as truncated then; what
was written of that one stays at its end. -/
def encode (header : Header) (questions : List Inquiry)
    (answers : List WireRecord) : Except WriteFault Octets := do
  let inquiries ← writePieces [] headerSize (questions.flatMap inquiryPieces)
  let body ←
    writeRecords inquiries.table (headerSize + inquiries.bytes.length) answers
  let cut := body.count < answers.length
  let flags := flagBytes { header with truncated := header.truncated || cut }
  return wordBytes header.id ++ flags ++ countBytes questions.length ++
    countBytes body.count ++ countBytes 0 ++ countBytes 0 ++ inquiries.bytes ++
    body.bytes ++ body.left

end DnsForwarder.Message
