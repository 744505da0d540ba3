import DnsForwarder.Cache
import Mathlib.Data.List.Dedup
import Mathlib.Data.List.Perm.Subperm

/-! What an answer cache holds after it was read or written: nothing that it had
not held before, apart from the answer that was written, and answers that may be
kept only. -/

namespace DnsForwarder

theorem Status.isCacheable_iff {status : Status} :
    status.isCacheable ↔ status ∈ [Status.ok, .noData, .noDomain] := by
  cases status <;> decide

namespace AnswerCache

variable {cache : AnswerCache} {now : Nat} {question : Question}
  {answer : Answer} {kept : CacheEntry}

theorem mem_others (hkept : kept ∈ cache.others question) :
    kept ∈ cache.entries :=
  (List.mem_filter.mp hkept).1

theorem mem_of_find? (hfind : cache.find? question = some kept) :
    kept ∈ cache.entries ∧ kept.question = question := by
  refine ⟨List.mem_of_find?_eq_some hfind, ?_⟩
  simpa using List.find?_some hfind

theorem mem_get (hkept : kept ∈ (cache.get now question).1.entries) :
    kept ∈ cache.entries := by
  rw [get] at hkept
  split at hkept
  next => exact hkept
  next found hfind =>
    split at hkept
    next =>
      rcases List.mem_cons.mp hkept with rfl | hother
      · exact (mem_of_find? hfind).1
      · exact mem_others hother
    next => exact mem_others hkept

theorem get_live (hget : (cache.get now question).2 = some answer) :
    ∃ kept ∈ cache.entries,
      kept.answer = answer ∧ answer.question = question ∧
        now < kept.expires := by
  rw [get] at hget
  split at hget
  next => cases hget
  next found hfind =>
    obtain ⟨hmem, hquestion⟩ := mem_of_find? hfind
    split at hget
    next hlive =>
      cases hget
      exact ⟨found, hmem, rfl, hquestion,
        by simpa [CacheEntry.isLive] using hlive⟩
    next => cases hget

theorem get_mem (hget : (cache.get now question).2 = some answer) :
    ∃ kept ∈ cache.entries, kept.answer = answer ∧
      answer.question = question := by
  obtain ⟨kept, hmem, hanswer, hquestion, -⟩ := get_live hget
  exact ⟨kept, hmem, hanswer, hquestion⟩

/-- A write that is admitted leaves one answer to its question, the new one. -/
theorem mem_insert_cases (hkept : kept ∈ (cache.insert now answer).1.entries) :
    kept ∈ cache.entries ∧
      (cache.admits answer → kept.question ≠ answer.question) ∨
      cache.admits answer ∧
      kept = ⟨answer, now + (cache.lifetime answer).toNat * 1000⟩ := by
  rw [insert] at hkept
  split at hkept
  next hadmits =>
    rcases List.mem_cons.mp (List.mem_of_mem_take hkept) with rfl | hother
    · exact .inr ⟨hadmits, rfl⟩
    · obtain ⟨hmem, hdifferent⟩ := List.mem_filter.mp hother
      exact .inl ⟨hmem, fun _ => by simpa using hdifferent⟩
  next hrefused => exact .inl ⟨hkept, fun hadmits => absurd hadmits hrefused⟩

theorem mem_insert (hkept : kept ∈ (cache.insert now answer).1.entries) :
    kept ∈ cache.entries ∨ kept.answer = answer ∧
      answer.status.isCacheable := by
  rcases mem_insert_cases hkept with ⟨hold, -⟩ | ⟨hadmits, rfl⟩
  · exact .inl hold
  · rw [admits, Bool.and_eq_true] at hadmits
    exact .inr ⟨rfl, hadmits.1⟩

theorem insert_snd (cache : AnswerCache) (now : Nat) (answer : Answer) :
    (cache.insert now answer).2 = cache.admits answer := by
  rw [insert]
  split
  next hadmits => exact hadmits.symm
  next hrefused => exact (Bool.eq_false_iff.mpr hrefused).symm

@[simp] theorem get_maxTtl (cache : AnswerCache) (now : Nat)
    (question : Question) :
    (cache.get now question).1.maxTtl = cache.maxTtl := by
  rw [get]
  split
  next => rfl
  next => split <;> rfl

@[simp] theorem insert_maxTtl (cache : AnswerCache) (now : Nat)
    (answer : Answer) :
    (cache.insert now answer).1.maxTtl = cache.maxTtl := by
  rw [insert]
  split <;> rfl

section Find

variable (cache : AnswerCache) (now : Nat) (answer : Answer)

theorem find?_cons (entry : CacheEntry) (entries : List CacheEntry)
    (question : Question) :
    find? { cache with entries := entry :: entries } question =
      if entry.question = question then some entry
      else find? { cache with entries } question := by
  by_cases hsame : entry.question = question <;> simp [find?, hsame]

theorem find?_others (other question : Question) :
    find? { cache with entries := cache.others other } question =
      if other = question then none else cache.find? question := by
  simp only [find?, others, List.find?_filter]
  by_cases hsame : other = question
  · subst hsame
    simp
  · rw [if_neg hsame]
    congr 1
    funext entry
    by_cases hentry : entry.question = question
    · simp [hentry, Ne.symm hsame]
    · simp [hentry]

theorem find?_get (question : Question) :
    (cache.get now question).1.find? question =
    (cache.find? question).filter fun entry => entry.isLive now := by
  unfold get
  cases hfind : cache.find? question with
  | none => exact hfind
  | some entry =>
      by_cases hlive : entry.isLive now
      · simp [hlive, find?_cons, (mem_of_find? hfind).2, Option.filter_some]
      · simp [hlive, find?_others, Option.filter_some]

theorem get_snd (question : Question) : (cache.get now question).2 =
    ((cache.find? question).filter fun entry => entry.isLive now).map
      CacheEntry.answer := by
  unfold get
  cases hfind : cache.find? question with
  | none => rfl
  | some entry =>
      by_cases hlive : entry.isLive now <;> simp [hlive, Option.filter_some]

theorem find?_get_of_ne {other question : Question}
    (hother : other ≠ question) :
    (cache.get now other).1.find? question = cache.find? question := by
  unfold get
  cases hfind : cache.find? other with
  | none => rfl
  | some entry =>
      by_cases hlive : entry.isLive now
      · simp [hlive, find?_cons, (mem_of_find? hfind).2, hother, find?_others]
      · simp [hlive, hother, find?_others]

theorem insert_fst
    (hroom : (cache.others answer.question).length < cache.capacity) :
    (cache.insert now answer).1 =
      if cache.admits answer then
        { cache with
          entries := ⟨answer, now + (cache.lifetime answer).toNat * 1000⟩ ::
            cache.others answer.question }
      else cache := by
  rw [insert]
  split
  next =>
    dsimp only
    rw [List.take_of_length_le (Nat.succ_le_of_lt hroom)]
  next => rfl

theorem find?_insert (hpos : 0 < cache.capacity) :
    (cache.insert now answer).1.find? answer.question =
      if cache.admits answer then
        some ⟨answer, now + (cache.lifetime answer).toNat * 1000⟩
      else cache.find? answer.question := by
  rw [insert]
  split
  next =>
    dsimp only
    rw [List.take_cons hpos, find?_cons]
    exact if_pos rfl
  next => rfl

theorem find?_insert_of_ne {question : Question}
    (hroom : (cache.others answer.question).length < cache.capacity)
    (hother : answer.question ≠ question) :
    (cache.insert now answer).1.find? question = cache.find? question := by
  rw [insert_fst cache now answer hroom]
  split
  next =>
    rw [find?_cons, find?_others, if_neg hother]
    exact if_neg hother
  next => rfl

end Find

/-- A cache that has room for the answers to some questions and keeps no others,
one for each. -/
structure Roomy (questions : List Question) (cache : AnswerCache) : Prop where
  pos : 0 < cache.capacity
  room : questions.dedup.length ≤ cache.capacity
  distinct : (cache.entries.map CacheEntry.question).Nodup
  subset : ∀ entry ∈ cache.entries, entry.question ∈ questions

namespace Roomy

variable {questions : List Question}

theorem of_sublist (hroomy : cache.Roomy questions)
    {entries : List CacheEntry} (hsublist : entries.Sublist cache.entries) :
    Roomy questions { cache with entries } where
  pos := hroomy.pos
  room := hroomy.room
  distinct := hroomy.distinct.sublist (hsublist.map _)
  subset entry hentry := hroomy.subset entry (hsublist.subset hentry)

theorem nodup_cons_others (hroomy : cache.Roomy questions)
    (question : Question) :
    (question :: (cache.others question).map CacheEntry.question).Nodup := by
  refine List.nodup_cons.mpr
    ⟨?_, (hroomy.of_sublist List.filter_sublist).distinct⟩
  rw [List.mem_map]
  rintro ⟨entry, hentry, hsame⟩
  have hdifferent := (List.mem_filter.mp hentry).2
  simp [hsame] at hdifferent

theorem others_length_lt (hroomy : cache.Roomy questions)
    {question : Question} (hquestion : question ∈ questions) :
    (cache.others question).length < cache.capacity := by
  have hsubset : question :: (cache.others question).map CacheEntry.question ⊆
      questions.dedup := by
    rw [List.cons_subset]
    refine ⟨List.mem_dedup.mpr hquestion, ?_⟩
    intro other hother
    obtain ⟨entry, hentry, rfl⟩ := List.mem_map.mp hother
    exact List.mem_dedup.mpr (hroomy.subset entry (mem_others hentry))
  have hlength :=
    ((hroomy.nodup_cons_others question).subperm hsubset).length_le
  rw [List.length_cons, List.length_map] at hlength
  exact Nat.lt_of_lt_of_le hlength hroomy.room

theorem cons (hroomy : cache.Roomy questions) (entry : CacheEntry)
    (hquestion : entry.question ∈ questions) :
    Roomy questions
      { cache with entries := entry :: cache.others entry.question } where
  pos := hroomy.pos
  room := hroomy.room
  distinct := hroomy.nodup_cons_others entry.question
  subset other hother := by
    rcases List.mem_cons.mp hother with rfl | hother
    · exact hquestion
    · exact hroomy.subset other (mem_others hother)

theorem get (hroomy : cache.Roomy questions) (now : Nat) (question : Question) :
    (cache.get now question).1.Roomy questions := by
  unfold AnswerCache.get
  split
  next => exact hroomy
  next entry hfind =>
    obtain ⟨hmem, rfl⟩ := mem_of_find? hfind
    split
    next => exact hroomy.cons entry (hroomy.subset entry hmem)
    next => exact hroomy.of_sublist List.filter_sublist

theorem insert (hroomy : cache.Roomy questions) (now : Nat)
    (hquestion : answer.question ∈ questions) :
    (cache.insert now answer).1.Roomy questions := by
  rw [insert_fst cache now answer (hroomy.others_length_lt hquestion)]
  split
  next => exact hroomy.cons ⟨answer, _⟩ hquestion
  next => exact hroomy

theorem clear (hroomy : cache.Roomy questions) : cache.clear.Roomy questions :=
  hroomy.of_sublist (List.nil_sublist _)

end Roomy

theorem empty_roomy {questions : List Question} {maxEntries : Nat}
    (hroom : questions.dedup.length ≤ maxEntries) (maxTtl : UInt32) :
    (empty maxEntries maxTtl).Roomy questions where
  pos := Nat.lt_of_lt_of_le Nat.zero_lt_one (Nat.le_max_right _ _)
  room := Nat.le_trans hroom (Nat.le_max_left _ _)
  distinct := List.nodup_nil
  subset := nofun

@[simp] theorem get_capacity (cache : AnswerCache) (now : Nat)
    (question : Question) :
    (cache.get now question).1.capacity = cache.capacity := by
  rw [get]
  split
  next => rfl
  next => split <;> rfl

@[simp] theorem insert_capacity (cache : AnswerCache) (now : Nat)
    (answer : Answer) :
    (cache.insert now answer).1.capacity = cache.capacity := by
  rw [insert]
  split <;> rfl

theorem find?_insert_congr {left right : AnswerCache}
    (hfound : left.find? answer.question = right.find? answer.question)
    (hmaxTtl : left.maxTtl = right.maxTtl) (hleft : 0 < left.capacity)
    (hright : 0 < right.capacity) (now : Nat) :
    (left.insert now answer).1.find? answer.question =
      (right.insert now answer).1.find? answer.question := by
  have hlifetime : left.lifetime answer = right.lifetime answer := by
    rw [lifetime, hmaxTtl, lifetime]
  have hadmits : left.admits answer = right.admits answer := by
    rw [admits, hlifetime, admits]
  rw [find?_insert left now answer hleft, find?_insert right now answer hright,
    hadmits, hlifetime, hfound]

end AnswerCache

end DnsForwarder
