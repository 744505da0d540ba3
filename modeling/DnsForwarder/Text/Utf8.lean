/-! UTF-8: the length of a text in bytes, its encoding, and a decoder that marks
every byte sequence that stands for no character. A broken sequence is as long
as the bytes that could still have become a character, so each mark stands for
one maximal broken piece. -/

namespace DnsForwarder.Text

def byteLength (text : List Char) : Nat :=
  text.foldr (fun c rest => c.utf8Size + rest) 0

def encode (text : List Char) : List UInt8 :=
  text.flatMap String.utf8EncodeChar

namespace Utf8

/-- A character under way: its bits so far, how many bytes it still needs, and
the bounds of the next. -/
structure Pending where
  bits : Nat
  owed : Nat
  low : Nat
  high : Nat

inductive Progress where
  | finished (c : Char)
  | broken
  | pending (state : Pending)

def first (byte : Nat) : Progress :=
  if byte < 0x80 then .finished (Char.ofNat byte)
  else if byte < 0xC2 then .broken
  else if byte < 0xE0 then .pending ⟨byte - 0xC0, 1, 0x80, 0xBF⟩
  else if byte = 0xE0 then .pending ⟨0, 2, 0xA0, 0xBF⟩
  else if byte = 0xED then .pending ⟨0xD, 2, 0x80, 0x9F⟩
  else if byte < 0xF0 then .pending ⟨byte - 0xE0, 2, 0x80, 0xBF⟩
  else if byte = 0xF0 then .pending ⟨0, 3, 0x90, 0xBF⟩
  else if byte < 0xF4 then .pending ⟨byte - 0xF0, 3, 0x80, 0xBF⟩
  else if byte = 0xF4 then .pending ⟨4, 3, 0x80, 0x8F⟩
  else .broken

def Pending.next (state : Pending) (byte : Nat) : Progress :=
  if state.low ≤ byte ∧ byte ≤ state.high then
    let bits := state.bits * 64 + (byte - 0x80)
    if state.owed ≤ 1 then .finished (Char.ofNat bits)
    else .pending ⟨bits, state.owed - 1, 0x80, 0xBF⟩
  else .broken

/-- Decodes bytes from between two characters or from inside one; `none` marks a
broken sequence. -/
def scan : Option Pending → List UInt8 → List (Option Char)
  | none, [] => []
  | some _, [] => [none]
  | none, byte :: rest =>
      match first byte.toNat with
      | .finished c => some c :: scan none rest
      | .broken => none :: scan none rest
      | .pending state => scan (some state) rest
  | some state, byte :: rest =>
      match state.next byte.toNat with
      | .finished c => some c :: scan none rest
      | .pending further => scan (some further) rest
      | .broken =>
          match first byte.toNat with
          | .finished c => none :: some c :: scan none rest
          | .broken => none :: none :: scan none rest
          | .pending other => none :: scan (some other) rest

end Utf8

def decode? (bytes : List UInt8) : Option (List Char) :=
  (Utf8.scan none bytes).mapM id

/-- The text of bytes, with the replacement character for each broken
sequence. -/
def decodeLossy (bytes : List UInt8) : List Char :=
  (Utf8.scan none bytes).map (·.getD (Char.ofNat 0xFFFD))

end DnsForwarder.Text
