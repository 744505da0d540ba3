/-! Memory for stores that set their full size aside when they are made. A
process that lacks the room for one ends. -/

namespace DnsForwarder

/-- No piece of memory is longer than half of all addresses. -/
def longestPiece : Nat := 9223372036854775807

/-- What a process can set aside for one store. -/
structure Memory where
  /-- The most answers that there is room for, at two pointers each. -/
  answers : Nat
  /-- The most slots that there is room for, at one pointer each. -/
  slots : Nat
  answers_le : 16 * answers ≤ longestPiece
  slots_le : 8 * slots ≤ longestPiece

/-- Room for stores of every usual size. -/
def roomyMemory : Memory :=
  ⟨4294967296, 4294967296, by decide, by decide⟩

end DnsForwarder
