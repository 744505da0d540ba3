import DnsForwarder.DomainName.Labels
import DnsForwarder.Message.Cursor

/-! Names in messages. A name is a run of labels that ends in a zero byte or in
a pointer to an earlier run. Pointers lead strictly backwards, so following them
ends. -/

namespace DnsForwarder.Message

/-- Labels read up to the end of a run, and the offset that a pointer gives at
its end. -/
structure Run where
  labels : Labels
  target? : Option Nat
  cursor : Cursor

/-- Reads a run of labels. No label, zero byte or pointer may begin at or behind
`limit`. -/
def readRun (limit : Option Nat) : (steps : Nat) → Cursor → Option Run
  | 0, _ => none
  | steps + 1, cursor =>
      if limit.any (· ≤ cursor.offset) then none
      else
        match cursor.byte? with
        | none => none
        | some (size, behind) =>
            if size = 0 then some ⟨[], none, behind⟩
            else if size < 0x40 then do
              let (label, behind) ← behind.take? size.toNat
              let run ← readRun limit steps behind
              return { run with labels := label :: run.labels }
            else if 0xC0 ≤ size then do
              let (pointer, behind) ← cursor.word?
              return ⟨[], some (pointer.toNat % 0x4000), behind⟩
            else none

/-- The most steps that a run of a name can take: longer runs hold more bytes
than a name may. -/
def maxSteps : Nat := 128

/-- The labels from an offset on. A pointer may only lead to before `start`, and
what it leads to has to end before it. -/
def readLabels (limit : Option Nat) :
    (hops : Nat) → (start : Nat) → Cursor → Option (Labels × Cursor)
  | 0, _, _ => none
  | hops + 1, start, cursor => do
      let run ← readRun limit maxSteps cursor
      match run.target? with
      | none => return (run.labels, run.cursor)
      | some target =>
          if target < start then do
            let (others, _) ←
              readLabels (some start) hops target
              (Cursor.ofOffset cursor.message target)
            return (run.labels ++ others, run.cursor)
          else none

/-- Reads a name. Each hop of a pointer leads further back, so there are at most
as many as there are bytes before the name. -/
def readName (cursor : Cursor) : Option (Labels × Cursor) := do
  let (labels, behind) ← readLabels none (cursor.offset + 1)
      cursor.offset cursor
  if Labels.span labels + 1 ≤ Labels.maxLength then
    return (labels, behind) else none

end DnsForwarder.Message
