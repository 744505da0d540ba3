import DnsForwarder.Octets

/-! A place in a message, from which bytes and numbers are read in order. -/

namespace DnsForwarder.Message

/-- A message, an offset into it, and the bytes from there on. -/
structure Cursor where
  message : Octets
  offset : Nat
  rest : Octets

namespace Cursor

def ofOffset (message : Octets) (offset : Nat) : Cursor :=
  ⟨message, offset, message.drop offset⟩

def take? (cursor : Cursor) (count : Nat) : Option (Octets × Cursor) :=
  let taken := cursor.rest.take count
  if taken.length = count then
    some (taken,
      ⟨cursor.message, cursor.offset + count, cursor.rest.drop count⟩)
  else none

def byte? (cursor : Cursor) : Option (UInt8 × Cursor) :=
  match cursor.rest with
  | byte :: rest => some (byte, ⟨cursor.message, cursor.offset + 1, rest⟩)
  | [] => none

def word? (cursor : Cursor) : Option (UInt16 × Cursor) :=
  match cursor.rest with
  | high :: low :: rest =>
      some (wordOfBytes high low, ⟨cursor.message, cursor.offset + 2, rest⟩)
  | _ => none

def long? (cursor : Cursor) : Option (UInt32 × Cursor) := do
  let (high, cursor) ← cursor.word?
  let (low, cursor) ← cursor.word?
  return (longOfWords high low, cursor)

def string? (cursor : Cursor) : Option (Octets × Cursor) := do
  let (size, cursor) ← cursor.byte?
  cursor.take? size.toNat

/-- Strings up to the offset `stop`; the last one may end behind it. -/
def strings? (stop : Nat) :
    (steps : Nat) → Cursor → Option (List Octets × Cursor)
  | 0, cursor => some ([], cursor)
  | steps + 1, cursor =>
      if cursor.offset < stop then do
        let (string, cursor) ← cursor.string?
        let (strings, cursor) ← strings? stop steps cursor
        return (string :: strings, cursor)
      else some ([], cursor)

end Cursor

end DnsForwarder.Message
