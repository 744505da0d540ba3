import DnsForwarder.Proofs.Cache
import Mathlib.Data.List.TakeWhile

/-! Accesses to a cache, and what one of them does to entries that stand by use.
An access that stores or finds an answer puts it first, at the cost of the entry
that was used longest ago when there is no room for it. All others lose at most
an entry that is out of date, unless they clear the cache. -/

namespace DnsForwarder

namespace AnswerCache

inductive Access where
  | insert (answer : Answer)
  | get (question : Question)
  | remaining (question : Question)
  | clear
  | wait (ms : Nat)
  deriving DecidableEq, Repr

inductive Result where
  | stored (taken : Bool)
  | found (answer? : Option Answer)
  | remaining (seconds? : Option Nat)
  | done
  deriving DecidableEq, Repr

def perform (cache : AnswerCache) (now : Nat) : Access → AnswerCache × Result
  | .insert answer =>
      let (cache, taken) := cache.insert now answer
      (cache, .stored taken)
  | .get question =>
      let (cache, answer?) := cache.get now question
      (cache, .found answer?)
  | .remaining question => (cache, .remaining (cache.remaining? now question))
  | .clear => (cache.clear, .done)
  | .wait _ => (cache, .done)

def Access.clock (now : Nat) : Access → Nat
  | .wait ms => now + ms
  | _ => now

structure Visit where
  now : Nat
  access : Access
  result : Result
  deriving DecidableEq, Repr

namespace Visit

def Stores (visit : Visit) (answer : Answer) : Prop :=
  visit.access = .insert answer ∧ visit.result = .stored true

def used? (visit : Visit) : Option Question :=
  match visit.access, visit.result with
  | .insert answer, .stored true => some answer.question
  | .get question, .found (some _) => some question
  | _, _ => none

def expiry (visit : Visit) (maxTtl : UInt32) (answer : Answer) : Nat :=
  visit.now + (min answer.ttl maxTtl).toNat * 1000

theorem Stores.unique {visit : Visit} {answer other : Answer}
    (hanswer : visit.Stores answer) (hother : visit.Stores other) :
    answer = other :=
  Access.insert.inj (hanswer.1.symm.trans hother.1)

end Visit

theorem Access.le_clock (now : Nat) (access : Access) :
    now ≤ access.clock now := by
  cases access with
  | wait ms => exact Nat.le_add_right now ms
  | _ => exact Nat.le_refl now

theorem perform_capacity (cache : AnswerCache) (now : Nat) (access : Access) :
    (cache.perform now access).1.capacity = cache.capacity := by
  cases access <;> simp [perform, clear]

theorem perform_maxTtl (cache : AnswerCache) (now : Nat) (access : Access) :
    (cache.perform now access).1.maxTtl = cache.maxTtl := by
  cases access <;> simp [perform, clear]

/-- What was used after a question was used last. The latest use stands
first. -/
def usedSince (uses : List Question) (question : Question) : List Question :=
  uses.takeWhile (· != question)

section Uses

variable {uses : List Question} {question used : Question}

theorem ne_of_mem_usedSince (hused : used ∈ usedSince uses question) :
    used ≠ question := by
  simpa using List.mem_takeWhile_imp hused

theorem usedSince_cons_of_ne (hused : used ≠ question) :
    usedSince (used :: uses) question = used :: usedSince uses question := by
  simp [usedSince, hused]

theorem dedup_length_le_cons (used : Question) (uses : List Question) :
    uses.dedup.length ≤ (used :: uses).dedup.length := by
  rw [List.dedup_cons]
  split
  next => exact Nat.le_refl _
  next => exact Nat.le_succ _

/-- Each entry was used after those that stand behind it. -/
def ByUse (uses : List Question) (entries : List CacheEntry) : Prop :=
  entries.Pairwise fun newer older =>
    newer.question ∈ usedSince uses older.question

namespace ByUse

variable {entries : List CacheEntry} {kept : CacheEntry} {room : Nat}

theorem nodup (hbyUse : ByUse uses entries) :
    (entries.map CacheEntry.question).Nodup :=
  List.pairwise_map.mpr (List.Pairwise.imp ne_of_mem_usedSince hbyUse)

theorem mem_take (hbyUse : ByUse uses entries) (hkept : kept ∈ entries)
    (hroom : (usedSince uses kept.question).dedup.length < room) :
    kept ∈ entries.take room := by
  obtain ⟨newer, older, rfl⟩ := List.append_of_mem hkept
  -- The entries in front of this one answer as many questions, and all of them
  -- were used since.
  have hsubset :
      newer.map CacheEntry.question ⊆ (usedSince uses kept.question).dedup := by
    intro question hquestion
    obtain ⟨entry, hentry, rfl⟩ := List.mem_map.mp hquestion
    exact List.mem_dedup.mpr
      ((List.pairwise_append.mp hbyUse).2.2 entry hentry kept
        List.mem_cons_self)
  have hnodup : (newer.map CacheEntry.question).Nodup :=
    hbyUse.nodup.sublist ((List.sublist_append_left _ _).map _)
  have hlength := (hnodup.subperm hsubset).length_le
  rw [List.length_map] at hlength
  rw [List.take_append, List.take_cons (by omega)]
  exact List.mem_append_right _ List.mem_cons_self

end ByUse

end Uses

def promoted (cache : AnswerCache) (entry : CacheEntry) : List CacheEntry :=
  (entry :: cache.others entry.question).take cache.capacity

structure Ordered (uses : List Question) (cache : AnswerCache) : Prop where
  pos : 0 < cache.capacity
  size : cache.entries.length ≤ cache.capacity
  byUse : ByUse uses cache.entries

namespace Ordered

variable {uses : List Question} {cache : AnswerCache} {entry kept : CacheEntry}
  {question : Question} {now : Nat}

theorem empty (maxEntries : Nat) (maxTtl : UInt32) :
    (AnswerCache.empty maxEntries maxTtl).Ordered [] where
  pos := Nat.lt_of_lt_of_le Nat.zero_lt_one (Nat.le_max_right _ _)
  size := Nat.zero_le _
  byUse := .nil

theorem clear (hordered : cache.Ordered uses) (later : List Question) :
    cache.clear.Ordered later where
  pos := hordered.pos
  size := Nat.zero_le _
  byUse := .nil

theorem of_sublist (hordered : cache.Ordered uses) {entries : List CacheEntry}
    (hsublist : entries.Sublist cache.entries) :
    Ordered uses { cache with entries } where
  pos := hordered.pos
  size := Nat.le_trans hsublist.length_le hordered.size
  byUse := hordered.byUse.sublist hsublist

theorem eq_of_mem (hordered : cache.Ordered uses)
    (hentry : entry ∈ cache.entries) (hkept : kept ∈ cache.entries)
    (hsame : entry.question = kept.question) : entry = kept :=
  List.inj_on_of_nodup_map hordered.byUse.nodup hentry hkept hsame

theorem byUse_cons (hordered : cache.Ordered uses) (entry : CacheEntry) :
    ByUse (entry.question :: uses) (entry :: cache.others entry.question) := by
  have hother (older : CacheEntry)
      (holder : older ∈ cache.others entry.question) :
      entry.question ≠ older.question :=
    (bne_iff_ne.mp (List.mem_filter.mp holder).2).symm
  refine List.pairwise_cons.mpr ⟨?_, ?_⟩
  · intro older holder
    rw [usedSince_cons_of_ne (hother older holder)]
    exact List.mem_cons_self
  · refine (hordered.byUse.sublist List.filter_sublist).imp_of_mem ?_
    intro newer older _ holder hused
    rw [usedSince_cons_of_ne (hother older holder)]
    exact List.mem_cons_of_mem _ hused

theorem promoted (hordered : cache.Ordered uses) (entry : CacheEntry) :
    Ordered (entry.question :: uses)
      { cache with entries := cache.promoted entry } where
  pos := hordered.pos
  size := List.length_take_le _ _
  byUse := (hordered.byUse_cons entry).sublist (List.take_sublist _ _)

theorem mem_promoted_self (hordered : cache.Ordered uses) (entry : CacheEntry) :
    entry ∈ cache.promoted entry := by
  rw [AnswerCache.promoted, List.take_cons hordered.pos]
  exact List.mem_cons_self

theorem mem_promoted (hordered : cache.Ordered uses)
    (hkept : kept ∈ cache.entries) (hother : entry.question ≠ kept.question)
    (hroom : (usedSince (entry.question :: uses) kept.question).dedup.length <
      cache.capacity) :
    kept ∈ cache.promoted entry := by
  refine (hordered.byUse_cons entry).mem_take (List.mem_cons_of_mem _ ?_) hroom
  exact List.mem_filter.mpr ⟨hkept, by simpa using hother.symm⟩

theorem promoted_of_mem (hordered : cache.Ordered uses)
    (hkept : kept ∈ cache.entries) (hsame : kept.question = entry.question) :
    cache.promoted entry = entry :: cache.others entry.question := by
  refine List.take_of_length_le ?_
  have hlength : (cache.others entry.question).length < cache.entries.length :=
    List.length_filter_lt_length_iff_exists.mpr ⟨kept, hkept, by simp [hsame]⟩
  exact Nat.le_trans hlength hordered.size

theorem others_live (hordered : cache.Ordered uses)
    (hentry : entry ∈ cache.entries) (hexpired : entry.isLive now = false) :
    (cache.others entry.question).filter (fun kept => kept.isLive now) =
      cache.entries.filter (fun kept => kept.isLive now) := by
  rw [others, List.filter_filter]
  refine List.filter_congr fun kept hkept => ?_
  by_cases hsame : kept.question = entry.question
  · obtain rfl := hordered.eq_of_mem hkept hentry hsame
    simp [hexpired]
  · simp [hsame]

end Ordered

section Perform

variable {cache : AnswerCache} {now : Nat} {access : Access}
  {uses : List Question}

def visit (cache : AnswerCache) (now : Nat) (access : Access) : Visit :=
  ⟨now, access, (cache.perform now access).2⟩

inductive Outcome (cache : AnswerCache) (now : Nat) (access : Access) :
    Prop where
  | clears (haccess : access = .clear) (hafter : (cache.perform now access).1 =
      cache.clear)
  | uses (entry : CacheEntry) (hused : (cache.visit now access).used? =
      some entry.question)
      (hentry : (cache.visit now access).Stores entry.answer ∨
        entry ∈ cache.entries)
      (hafter : (cache.perform now access).1 =
        { cache with entries := cache.promoted entry })
  /-- At most an answer that is out of date is lost. -/
  | spares (entries : List CacheEntry)
    (hused : (cache.visit now access).used? = none)
      (hafter : (cache.perform now access).1 = { cache with entries })
      (hsublist : entries.Sublist cache.entries)
      (hlive : entries.filter (fun kept => kept.isLive now) =
        cache.entries.filter (fun kept => kept.isLive now))

theorem Ordered.outcome (hordered : cache.Ordered uses) (now : Nat)
    (access : Access) :
    cache.Outcome now access := by
  have hrefl := List.Sublist.refl cache.entries
  cases access with
  | insert answer =>
      by_cases hadmits : cache.admits answer
      · refine .uses ⟨answer, now + (cache.lifetime answer).toNat * 1000⟩ ?_
          (.inl ⟨rfl, ?_⟩) ?_
        · simp [visit, perform, Visit.used?, insert_snd, hadmits,
            CacheEntry.question]
        · simp [visit, perform, insert_snd, hadmits]
        · simp [perform, insert, hadmits, AnswerCache.promoted,
            CacheEntry.question]
      · refine .spares cache.entries ?_ ?_ hrefl rfl
        · simp [visit, perform, Visit.used?, insert_snd, hadmits]
        · simp [perform, insert, hadmits]
  | get question =>
      cases hfind : cache.find? question with
      | none =>
          refine .spares cache.entries ?_ ?_ hrefl rfl
          · simp [visit, perform, Visit.used?, get, hfind]
          · simp [perform, get, hfind]
      | some entry =>
          obtain ⟨hmem, rfl⟩ := mem_of_find? hfind
          by_cases hlive : entry.isLive now
          · refine .uses entry ?_ (.inr hmem) ?_
            · simp [visit, perform, Visit.used?, get, hfind, hlive]
            · simp [perform, get, hfind, hlive,
                hordered.promoted_of_mem hmem rfl]
          · rw [Bool.not_eq_true] at hlive
            refine .spares (cache.others entry.question) ?_ ?_
              List.filter_sublist (hordered.others_live hmem hlive)
            · simp [visit, perform, Visit.used?, get, hfind, hlive]
            · simp [perform, get, hfind, hlive]
  | remaining question => exact .spares cache.entries rfl rfl hrefl rfl
  | clear => exact .clears rfl rfl
  | wait ms => exact .spares cache.entries rfl rfl hrefl rfl

/-- What a cache holds after an access was there before and not replaced, or was
stored now. -/
theorem mem_perform {kept : CacheEntry}
    (hkept : kept ∈ (cache.perform now access).1.entries) :
    let visit := cache.visit now access
    kept ∈ cache.entries ∧ access ≠ .clear ∧
        (∀ other, visit.Stores other → other.question ≠ kept.answer.question) ∨
      visit.Stores kept.answer ∧
      kept.expires = visit.expiry cache.maxTtl kept.answer := by
  intro visit
  cases access with
  | insert answer =>
      have hresult : visit.result = .stored (cache.admits answer) :=
        congrArg Result.stored (insert_snd cache now answer)
      rcases mem_insert_cases hkept with ⟨hmem, hdifferent⟩ | ⟨hadmits, rfl⟩
      · refine .inl ⟨hmem, nofun, ?_⟩
        rintro other ⟨hother, hstored⟩
        cases hother
        rw [hresult] at hstored
        exact (hdifferent (Result.stored.inj hstored)).symm
      · exact .inr ⟨⟨rfl, hresult.trans (congrArg Result.stored hadmits)⟩, rfl⟩
  | get question =>
      exact .inl ⟨mem_get hkept, nofun, fun _ hstores => absurd hstores.1 nofun⟩
  | remaining question =>
      exact .inl ⟨hkept, nofun, fun _ hstores => absurd hstores.1 nofun⟩
  | clear => exact absurd hkept List.not_mem_nil
  | wait ms =>
      exact .inl ⟨hkept, nofun, fun _ hstores => absurd hstores.1 nofun⟩

theorem mem_perform_of_stores {answer : Answer} (hpos : 0 < cache.capacity)
    (hstores : (cache.visit now access).Stores answer) :
    ⟨answer, (cache.visit now access).expiry cache.maxTtl answer⟩ ∈
      (cache.perform now access).1.entries := by
  obtain ⟨rfl, hstored⟩ := hstores
  have hadmits : cache.admits answer := by
    rw [← insert_snd cache now answer]
    exact Result.stored.inj hstored
  have hfound := find?_insert cache now answer hpos
  rw [if_pos hadmits] at hfound
  exact (mem_of_find? hfound).1

end Perform

end AnswerCache

end DnsForwarder
