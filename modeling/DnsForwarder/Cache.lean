import DnsForwarder.Answer
import DnsForwarder.Memory

/-! A bounded store of answers. Times are milliseconds of a clock that the
caller reads; when the store is full, the answer that was used longest ago makes
room. -/

namespace DnsForwarder

structure CacheEntry where
  answer : Answer
  expires : Nat
  deriving DecidableEq, Repr

/-- The entries stand in order of use, the most recent one first. -/
structure AnswerCache where
  capacity : Nat
  maxTtl : UInt32
  entries : List CacheEntry
  deriving DecidableEq, Repr

namespace CacheEntry

def question (entry : CacheEntry) : Question :=
  entry.answer.question

def isLive (entry : CacheEntry) (now : Nat) : Bool :=
  now < entry.expires

end CacheEntry

namespace AnswerCache

/-- An empty store, for at least one answer, as there is where memory has room
for it (`empty?`). -/
def empty (maxEntries : Nat) (maxTtl : UInt32) : AnswerCache :=
  ⟨max maxEntries 1, maxTtl, []⟩

def empty? (memory : Memory) (maxEntries : Nat) (maxTtl : UInt32) :
    Option AnswerCache :=
  if max maxEntries 1 ≤ memory.answers then some (empty maxEntries maxTtl)
  else none

def find? (cache : AnswerCache) (question : Question) : Option CacheEntry :=
  cache.entries.find? fun entry => entry.question == question

def others (cache : AnswerCache) (question : Question) : List CacheEntry :=
  cache.entries.filter fun entry => entry.question != question

/-- Looks an answer up. A live one becomes the most recent; one that is out of
date is dropped. -/
def get (cache : AnswerCache) (now : Nat) (question : Question) :
    AnswerCache × Option Answer :=
  match cache.find? question with
  | none => (cache, none)
  | some entry =>
      if entry.isLive now then
        ({ cache with entries := entry :: cache.others question },
          some entry.answer)
      else ({ cache with entries := cache.others question }, none)

def lifetime (cache : AnswerCache) (answer : Answer) : UInt32 :=
  min answer.ttl cache.maxTtl

def admits (cache : AnswerCache) (answer : Answer) : Bool :=
  answer.status.isCacheable && cache.lifetime answer != 0

/-- Stores an answer as the most recent one, unless it is a failure or has no
lifetime. -/
def insert (cache : AnswerCache) (now : Nat) (answer : Answer) :
    AnswerCache × Bool :=
  if cache.admits answer then
    let entry : CacheEntry :=
      ⟨answer, now + (cache.lifetime answer).toNat * 1000⟩
    ({ cache with
       entries := (entry :: cache.others answer.question).take cache.capacity },
       true)
  else (cache, false)

def remaining? (cache : AnswerCache) (now : Nat) (question : Question) :
    Option Nat :=
  match cache.find? question with
  | none => none
  | some entry =>
      if now ≤ entry.expires then some ((entry.expires - now) / 1000) else none

def size (cache : AnswerCache) : Nat :=
  cache.entries.length

def clear (cache : AnswerCache) : AnswerCache :=
  { cache with entries := [] }

end AnswerCache

end DnsForwarder
