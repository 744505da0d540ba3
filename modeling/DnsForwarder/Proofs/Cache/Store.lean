import DnsForwarder.Proofs.Cache.Access

/-! A cache over a store of entries that does the bookkeeping. From the store it
needs that putting and getting an entry make it the most recent one, and that
the entry used longest ago makes room for a new one when the store is full. Any
such store makes the same cache. -/

namespace DnsForwarder

structure EntryStore (σ : Type) where
  create (bound : Nat) : σ
  put : σ → CacheEntry → σ
  get : σ → Question → σ × Option CacheEntry
  peek : σ → Question → Option CacheEntry
  pop : σ → Question → σ
  clear : σ → σ
  len : σ → Nat
  bound : σ → Nat
  order : σ → List CacheEntry

namespace EntryStore

variable {σ : Type}

/-- What the operations do to the entries in the order of their use. -/
structure KeepsByUse (store : EntryStore σ) : Prop where
  order_create {bound : Nat} (hpos : 0 < bound) :
    store.order (store.create bound) = []
  /-- An entry takes the place of the old one for its question. -/
  order_put_known {state : σ} {entry old : CacheEntry}
    (hold : old ∈ store.order state) (hsame : old.question = entry.question) :
    store.order (store.put state entry) =
      entry :: (store.order state).filter fun other =>
        other.question != entry.question
  order_put_new {state : σ} {entry : CacheEntry}
    (hnew : ∀ old ∈ store.order state, old.question ≠ entry.question)
    (hroom : (store.order state).length < store.bound state) :
    store.order (store.put state entry) = entry :: store.order state
  order_put_full {state : σ} {entry : CacheEntry}
    (hnew : ∀ old ∈ store.order state, old.question ≠ entry.question)
    (hfull : (store.order state).length = store.bound state) :
    store.order (store.put state entry) = entry :: (store.order state).dropLast
  get_snd (state : σ) (question : Question) :
    (store.get state question).2 =
      (store.order state).find? fun entry => entry.question == question
  order_get_known {state : σ} {question : Question} {entry : CacheEntry}
    (hentry : (store.get state question).2 = some entry) :
    store.order (store.get state question).1 =
      entry :: (store.order state).filter fun other =>
        other.question != question
  order_get_unknown {state : σ} {question : Question}
    (hnone : (store.get state question).2 = none) :
    store.order (store.get state question).1 = store.order state
  peek_eq (state : σ) (question : Question) :
    store.peek state question =
      (store.order state).find? fun entry => entry.question == question
  order_pop (state : σ) (question : Question) :
    store.order (store.pop state question) =
      (store.order state).filter fun other => other.question != question
  order_clear (state : σ) : store.order (store.clear state) = []
  len_eq (state : σ) : store.len state = (store.order state).length
  bound_create {bound : Nat} (hpos : 0 < bound) :
    store.bound (store.create bound) = bound
  bound_put (state : σ) (entry : CacheEntry) :
    store.bound (store.put state entry) = store.bound state
  bound_get (state : σ) (question : Question) :
    store.bound (store.get state question).1 = store.bound state
  bound_pop (state : σ) (question : Question) :
    store.bound (store.pop state question) = store.bound state
  bound_clear (state : σ) : store.bound (store.clear state) = store.bound state

structure Cached (σ : Type) where
  entries : σ
  maxTtl : UInt32

open AnswerCache

variable (store : EntryStore σ)

def start (maxEntries : Nat) (maxTtl : UInt32) : Cached σ :=
  ⟨store.create (if maxEntries = 0 then 1 else maxEntries), maxTtl⟩

def getAnswer (cache : Cached σ) (now : Nat) (question : Question) :
    Cached σ × Option Answer :=
  match store.get cache.entries question with
  | (entries, none) => ({ cache with entries }, none)
  | (entries, some entry) =>
      if entry.isLive now then ({ cache with entries }, some entry.answer)
      -- The entry was used although it is out of date, and goes after that.
      else ({ cache with entries := store.pop entries question }, none)

def insertAnswer (cache : Cached σ) (now : Nat) (answer : Answer) :
    Cached σ × Bool :=
  let ttl := min answer.ttl cache.maxTtl
  if !answer.status.isCacheable then (cache, false)
  else if ttl = 0 then (cache, false)
  else
    let entry : CacheEntry := ⟨answer, now + ttl.toNat * 1000⟩
    ({ cache with entries := store.put cache.entries entry }, true)

def remaining? (cache : Cached σ) (now : Nat) (question : Question) :
    Option Nat := do
  let entry ← store.peek cache.entries question
  if now ≤ entry.expires then some ((entry.expires - now) / 1000) else none

def perform (cache : Cached σ) (now : Nat) : Access → Cached σ × Result
  | .insert answer =>
      let (cache, taken) := store.insertAnswer cache now answer
      (cache, .stored taken)
  | .get question =>
      let (cache, answer?) := store.getAnswer cache now question
      (cache, .found answer?)
  | .remaining question =>
      (cache, .remaining (store.remaining? cache now question))
  | .clear => ({ cache with entries := store.clear cache.entries }, .done)
  | .wait _ => (cache, .done)

/-- The cache as the order of its entries shows it. -/
def view (cache : Cached σ) : AnswerCache :=
  ⟨store.bound cache.entries, cache.maxTtl, store.order cache.entries⟩

namespace KeepsByUse

variable {store : EntryStore σ} {cache : Cached σ} {uses : List Question}

theorem view_start (hstore : store.KeepsByUse) (maxEntries : Nat)
    (maxTtl : UInt32) :
    store.view (store.start maxEntries maxTtl) = .empty maxEntries maxTtl := by
  have hbound : (if maxEntries = 0 then 1 else maxEntries) =
      max maxEntries 1 := by
    split <;> omega
  have hpos : 0 < max maxEntries 1 := (Ordered.empty maxEntries maxTtl).pos
  rw [view, start, hbound, hstore.bound_create hpos, hstore.order_create hpos,
    AnswerCache.empty]

/-- Whether an entry is new and whether the store is full makes no difference to
what is left. -/
theorem order_put (hstore : store.KeepsByUse)
    (hordered : (store.view cache).Ordered uses) (entry : CacheEntry) :
    store.order (store.put cache.entries entry) =
      (store.view cache).promoted entry := by
  by_cases hknown : ∃ old ∈ store.order cache.entries, old.question =
    entry.question
  · obtain ⟨old, hold, hsame⟩ := hknown
    rw [hstore.order_put_known hold hsame]
    exact (hordered.promoted_of_mem hold hsame).symm
  · have hnew : ∀ old ∈ store.order cache.entries, old.question ≠
        entry.question := by
      simpa using hknown
    have hothers : (store.view cache).others entry.question =
        store.order cache.entries :=
      List.filter_eq_self.mpr fun old hold => bne_iff_ne.mpr (hnew old hold)
    rw [promoted, hothers, List.take_cons hordered.pos]
    rcases Nat.lt_or_eq_of_le hordered.size with hroom | hfull
    · rw [hstore.order_put_new hnew hroom]
      exact congrArg (entry :: ·)
        (List.take_of_length_le (Nat.le_sub_one_of_lt hroom)).symm
    · rw [hstore.order_put_full hnew hfull, List.dropLast_eq_take]
      exact congrArg
        (fun count => entry :: (store.order cache.entries).take (count - 1))
        hfull

theorem getAnswer_view (hstore : store.KeepsByUse) (cache : Cached σ)
    (now : Nat) (question : Question) :
    (store.getAnswer cache now question).map store.view id =
      (store.view cache).get now question := by
  have hbound := hstore.bound_get cache.entries question
  rcases hget : store.get cache.entries question with ⟨entries, found?⟩
  have hsnd : (store.get cache.entries question).2 = found? :=
    congrArg Prod.snd hget
  have hfind : (store.view cache).find? question = found? :=
    (hstore.get_snd cache.entries question).symm.trans hsnd
  rw [getAnswer, hget, AnswerCache.get, hfind]
  cases found? with
  | none =>
      have horder := hstore.order_get_unknown hsnd
      rw [hget] at hbound horder
      simp [view, hbound, horder]
  | some entry =>
      have horder := hstore.order_get_known hsnd
      rw [hget] at hbound horder
      by_cases hlive : entry.isLive now
      · simp [view, hbound, horder, hlive, others]
      · have hentry := (mem_of_find? hfind).2
        simp [view, hbound, horder, hlive, others, hstore.bound_pop,
          hstore.order_pop, hentry]

theorem insertAnswer_view (hstore : store.KeepsByUse)
    (hordered : (store.view cache).Ordered uses) (now : Nat) (answer : Answer) :
    (store.insertAnswer cache now answer).map store.view id =
      (store.view cache).insert now answer := by
  have hput := hstore.order_put hordered
  by_cases hcacheable : answer.status.isCacheable
  · by_cases hzero : min answer.ttl cache.maxTtl = 0
    · simp [insertAnswer, AnswerCache.insert, admits, lifetime, hcacheable,
        hzero, view]
    · simp [insertAnswer, AnswerCache.insert, admits, lifetime, hcacheable,
        hzero, view,
        hstore.bound_put, hput, promoted, CacheEntry.question, others]
  · simp [insertAnswer, AnswerCache.insert, admits, hcacheable]

theorem remaining?_view (hstore : store.KeepsByUse) (cache : Cached σ)
    (now : Nat) (question : Question) :
    store.remaining? cache now question =
      (store.view cache).remaining? now question := by
  have hfind : store.peek cache.entries question =
      (store.view cache).find? question :=
    hstore.peek_eq cache.entries question
  rw [EntryStore.remaining?, AnswerCache.remaining?, hfind]
  cases (store.view cache).find? question with
  | none => rfl
  | some entry => rfl

theorem perform_view (hstore : store.KeepsByUse)
    (hordered : (store.view cache).Ordered uses) (now : Nat) (access : Access) :
    (store.perform cache now access).map store.view id =
      (store.view cache).perform now access := by
  cases access with
  | insert answer =>
      have hinsert := hstore.insertAnswer_view hordered now answer
      simp [EntryStore.perform, AnswerCache.perform, ← hinsert]
  | get question =>
      have hget := hstore.getAnswer_view cache now question
      simp [EntryStore.perform, AnswerCache.perform, ← hget]
  | remaining question =>
      have hremaining := hstore.remaining?_view cache now question
      simp [EntryStore.perform, AnswerCache.perform, hremaining]
  | clear =>
      simp [EntryStore.perform, AnswerCache.perform, AnswerCache.clear, view,
        hstore.bound_clear, hstore.order_clear]
  | wait ms => rfl

end KeepsByUse

structure EntryList where
  bound : Nat
  entries : List CacheEntry
  deriving DecidableEq, Repr

namespace EntryList

def others (list : EntryList) (question : Question) : List CacheEntry :=
  list.entries.filter fun entry => entry.question != question

def put (list : EntryList) (entry : CacheEntry) : EntryList :=
  if list.entries.any fun old => old.question == entry.question then
    { list with entries := entry :: list.others entry.question }
  else if list.entries.length < list.bound then
    { list with entries := entry :: list.entries }
  else { list with entries := entry :: list.entries.dropLast }

def peek (list : EntryList) (question : Question) : Option CacheEntry :=
  list.entries.find? fun entry => entry.question == question

def get (list : EntryList) (question : Question) :
    EntryList × Option CacheEntry :=
  match list.peek question with
  | none => (list, none)
  | some entry =>
      ({ list with entries := entry :: list.others question }, some entry)

section

variable {list : EntryList} {entry : CacheEntry} {question : Question}

theorem any_eq_false
    (hnew : ∀ old ∈ list.entries, old.question ≠ entry.question) :
    (list.entries.any fun old => old.question == entry.question) = false :=
  List.any_eq_false.mpr fun old hold => by simpa using hnew old hold

theorem get_snd (list : EntryList) (question : Question) :
    (list.get question).2 = list.peek question := by
  rw [get]
  split
  next hpeek => exact hpeek.symm
  next hpeek => exact hpeek.symm

theorem get_of_peek (hpeek : list.peek question = some entry) :
    list.get question =
      ({ list with entries := entry :: list.others question }, some entry) := by
  rw [get, hpeek]

theorem get_of_not_peek (hpeek : list.peek question = none) :
    list.get question = (list, none) := by
  rw [get, hpeek]

theorem put_bound (list : EntryList) (entry : CacheEntry) :
    (list.put entry).bound = list.bound := by
  rw [put]
  split
  next => rfl
  next => split <;> rfl

end

end EntryList

def lists : EntryStore EntryList where
  create bound := ⟨bound, []⟩
  put := EntryList.put
  get := EntryList.get
  peek := EntryList.peek
  pop list question := { list with entries := list.others question }
  clear list := { list with entries := [] }
  len list := list.entries.length
  bound := EntryList.bound
  order := EntryList.entries

theorem lists_keepsByUse : lists.KeepsByUse where
  order_create _ := rfl
  order_put_known {list entry old} hold hsame := by
    have hknown :
        (list.entries.any fun old => old.question == entry.question) = true :=
      List.any_eq_true.mpr ⟨old, hold, beq_iff_eq.mpr hsame⟩
    simp [lists, EntryList.put, hknown, EntryList.others]
  order_put_new {list entry} hnew hroom := by
    have hroom : list.entries.length < list.bound := hroom
    simp [lists, EntryList.put, EntryList.any_eq_false hnew, hroom]
  order_put_full {list entry} hnew hfull := by
    have hfull : ¬list.entries.length < list.bound :=
      fun hless => Nat.ne_of_lt hless hfull
    simp [lists, EntryList.put, EntryList.any_eq_false hnew, hfull]
  get_snd := EntryList.get_snd
  order_get_known {list question entry} hentry := by
    have hpeek := (list.get_snd question).symm.trans hentry
    exact congrArg (fun result => result.1.entries)
      (EntryList.get_of_peek hpeek)
  order_get_unknown {list question} hnone := by
    have hpeek := (list.get_snd question).symm.trans hnone
    exact congrArg (fun result => result.1.entries)
      (EntryList.get_of_not_peek hpeek)
  peek_eq _ _ := rfl
  order_pop _ _ := rfl
  order_clear _ := rfl
  len_eq _ := rfl
  bound_create _ := rfl
  bound_put := EntryList.put_bound
  bound_get list question := by
    cases hpeek : list.peek question with
    | none =>
        exact congrArg (fun result => result.1.bound)
          (EntryList.get_of_not_peek hpeek)
    | some entry =>
        exact congrArg (fun result => result.1.bound)
          (EntryList.get_of_peek hpeek)
  bound_pop _ _ := rfl
  bound_clear _ := rfl

end EntryStore

end DnsForwarder
